/-
Saving and restoring a chip.

A saved state is restored from the bytes of the chip and from nothing else: what is restored is saved again as the bytes
that were read, what stands behind them does not matter, and a state that is cut short cannot be read. Every reachable
chip can be saved and restored. Restoring empties its cache of decoded modes, which no later call can tell.

Main results: `restore_and_continue`, `save_canonical`.
-/
import Accel3D.Proofs.Format
import Accel3D.Proofs.ModeCache
import Accel3D.Proofs.Shape

namespace Accel3D.Chip

theorem image_chip (c : Chip) : Codec.chip.image c = c.save.data.toList := by
  rw [Codec.image, save]

/-- the cache is not saved -/
theorem save_uncached (c : Chip) : c.uncached.save = c.save := by
  have hmap : ∀ {α : Type} (k : Codec α) (pack : α → Chip) (unpack : Chip → α),
      unpack c.uncached = unpack c → (k.map pack unpack).encode c.uncached = (k.map pack unpack).encode c := by
    intro α k pack unpack hu
    show k.put (unpack c.uncached) ByteArray.empty = k.put (unpack c) ByteArray.empty
    rw [hu]
  exact hmap _ _ _ rfl

/-! ## Reading from the start of some bytes -/

/-- reading a chip from the start of some bytes: it can be carried, there is room, and its saved state stands there and
is read to its end -/
theorem get_start : ∃ need : Chip → Nat, (∀ c, need c ≤ c.storedCost) ∧ ∀ bytes c r,
    Codec.chip.get (Reader.ofBytes bytes) = .ok (c, r) ↔
      (c.Storable ∧ need c ≤ Reader.limit) ∧ c.save.data.toList <+: bytes.data.toList ∧ r = ⟨bytes, c.save.size, 0⟩ := by
  obtain ⟨-, need, hneed, hc⟩ := Codec.reads_chip
  refine ⟨need, hneed, fun bytes c r => ?_⟩
  have hrest : (Reader.ofBytes bytes).rest = bytes.data.toList := rfl
  have hused : (Reader.ofBytes bytes).used = 0 := rfl
  have hskip : (Reader.ofBytes bytes).skip c.save.size = ⟨bytes, c.save.size, 0⟩ := by
    simp only [Reader.skip, Reader.ofBytes, Nat.zero_add]
  rw [hc.get_eq, Reader.Holds, hrest, hused, Nat.zero_add, image_chip, Array.length_toList, ByteArray.size_data, hskip,
    and_assoc]

theorem restore_eq_ok {bytes : ByteArray} {c : Chip} :
    restore bytes = .ok c ↔
      (∃ r, Codec.chip.get (Reader.ofBytes bytes) = .ok (c, r)) ∧ c.config.validate = .ok () := by
  unfold restore
  cases hg : Codec.chip.get (Reader.ofBytes bytes) with
  | error e => simp
  | ok p =>
    obtain ⟨d, r⟩ := p
    cases hv : d.config.validate with
    | error e =>
      simp only [hv, reduceCtorEq, Except.ok.injEq, Prod.mk.injEq, false_iff]
      intro hx
      rcases hx with ⟨⟨r, rfl, -⟩, h⟩
      simp [hv] at h
    | ok u =>
      simp only [hv, Except.ok.injEq, Prod.mk.injEq]
      refine ⟨?_, ?_⟩
      · rintro rfl
        exact ⟨⟨r, rfl, rfl⟩, hv⟩
      · intro hx
        rcases hx with ⟨⟨r, rfl, -⟩, -⟩
        rfl

/-- what is restored is saved as the bytes that were read, and these are all that were read -/
theorem get_of_restore {bytes : ByteArray} {c : Chip} (h : restore bytes = .ok c) :
    c.save.data.toList <+: bytes.data.toList ∧
      Codec.chip.get (Reader.ofBytes bytes) = .ok (c, ⟨bytes, c.save.size, 0⟩) := by
  obtain ⟨need, -, hget⟩ := get_start
  obtain ⟨⟨r, hg⟩, -⟩ := restore_eq_ok.1 h
  obtain ⟨-, hp, rfl⟩ := (hget bytes c r).1 hg
  exact ⟨hp, hg⟩

theorem restore_extended {bytes bytes' : ByteArray} {c : Chip} (h : restore bytes = .ok c)
    (hp : c.save.data.toList <+: bytes'.data.toList) : restore bytes' = .ok c := by
  obtain ⟨need, -, hget⟩ := get_start
  obtain ⟨⟨r, hg⟩, hv⟩ := restore_eq_ok.1 h
  obtain ⟨hc, -, -⟩ := (hget bytes c r).1 hg
  exact restore_eq_ok.2 ⟨⟨_, (hget bytes' c _).2 ⟨hc, hp, rfl⟩⟩, hv⟩

/-- a saved state that is cut short cannot be read -/
theorem restore_cut {bytes : ByteArray} {c : Chip} (h : restore c.save = .ok c)
    (hp : bytes.data.toList <+: c.save.data.toList) (hlt : bytes.size < c.save.size) :
    ∃ cause, restore bytes = .error (.unreadable cause) := by
  obtain ⟨need, -, hget⟩ := get_start
  cases hg : Codec.chip.get (Reader.ofBytes bytes) with
  | error e => exact ⟨e, by simp [restore, hg]⟩
  | ok p =>
    -- the chip that is read would stand at the start of the whole state too, so it is the saved one, which is too long
    exfalso
    obtain ⟨d, r⟩ := p
    obtain ⟨hd, hdp, -⟩ := (hget bytes d r).1 hg
    have h1 := (hget c.save d _).2 ⟨hd, hdp.trans hp, rfl⟩
    obtain ⟨rfl, -⟩ : d = c ∧ _ := by simpa [h1] using (get_of_restore h).2
    have hle := hdp.length_le
    rw [Array.length_toList, Array.length_toList] at hle
    exact absurd hle (Nat.not_le_of_lt hlt)

/-! ## Reachable chips -/

theorem sum_map_le {α : Type} (l : List α) (f : α → Nat) (k : Nat) (h : ∀ a ∈ l, f a ≤ k) :
    (l.map f).sum ≤ l.length * k := by
  induction l with
  | nil => exact Nat.zero_le _
  | cons a l ih =>
    have ha := h a List.mem_cons_self
    have hl := ih fun b hb => h b (List.mem_cons_of_mem a hb)
    simp only [List.map_cons, List.sum_cons, List.length_cons, Nat.succ_mul]
    omega

theorem storable_reachable (c : Chip) (h : c.Reachable) :
    c.uncached.Storable ∧ c.uncached.storedCost ≤ Reader.limit := by
  obtain ⟨hframe, hunits, htextures⟩ := memory_size_reachable c h
  have hqueue : c.queue.length ≤ 64 := queue_length_reachable c h
  have hsum := sum_map_le c.textures.toList (fun u => 13757 + u.memory.size) (13757 + 2 ^ 24)
    fun u hu => Nat.add_le_add_left (htextures u hu) 13757
  rw [Array.length_toList] at hsum
  refine ⟨⟨rfl, ?_, ?_, fun u hu => ?_, ?_⟩, ?_⟩
  · exact Nat.lt_of_le_of_lt hframe (by decide)
  · exact Nat.lt_of_le_of_lt hunits (by decide)
  · exact Nat.lt_of_le_of_lt (htextures u hu) (by decide)
  · exact Nat.lt_of_le_of_lt hqueue (by decide)
  · show 2904 + c.frame.memory.size + c.textures.size * 5736 +
      (c.textures.toList.map fun u => 13757 + u.memory.size).sum + 16 * c.queue.length ≤ 1000000000
    omega

/-- a reachable chip is restored from its saved state, with an empty cache -/
theorem restore_save (c : Chip) (h : c.Reachable) : restore c.save = .ok c.uncached := by
  obtain ⟨need, hneed, hget⟩ := get_start
  obtain ⟨hs, hcost⟩ := storable_reachable c h
  have hv : c.uncached.config.validate = .ok () := (shape_reachable c h).1
  have hsave : c.uncached.save.data.toList <+: c.save.data.toList :=
    ⟨[], by rw [List.append_nil, save_uncached]⟩
  exact restore_eq_ok.2 ⟨⟨_, (hget c.save c.uncached _).2 ⟨⟨hs, Nat.le_trans (hneed _) hcost⟩, hsave, rfl⟩⟩, hv⟩

/-- **Saving, restoring and continuing is continuing.** A reachable chip is restored as itself with an empty cache; from
then on both read the same values in every run, and end alike but for their caches. -/
theorem restore_and_continue (c : Chip) (h : c.Reachable) :
    restore c.save = .ok c.uncached ∧ ∀ calls : List Call,
      (c.uncached.runCalls calls).2 = (c.runCalls calls).2 ∧
      (c.uncached.runCalls calls).1.uncached = (c.runCalls calls).1.uncached := by
  refine ⟨restore_save c h, fun calls => ?_⟩
  have t : CacheTwin c.uncached c := ⟨rfl, .empty, modes_reachable c h⟩
  obtain ⟨hv, hend⟩ := t.run calls
  exact ⟨hv, hend.uncached⟩

/-- a chip with a triangle drawn, a write that waits and an entry in its cache -/
theorem restore_and_continue_waiting :
    let first : Chip := initial { ChipConfig.standard with deferWrites := true }
    let c : Chip := (first.runCalls [.writeRegister 0x20 0, .flush, .writeRegister 0x41 0x100]).1
    let calls : List Call := [.writeRegister 0x20 0, .readRegister 0x41, .retrace, .readLinear 0]
    c.Reachable ∧ c.queue.length = 1 ∧ restore c.save = .ok c.uncached ∧
      (c.uncached.runCalls calls).2 = (c.runCalls calls).2 ∧
      (c.uncached.runCalls calls).1.uncached = (c.runCalls calls).1.uncached := by
  intro first c calls
  have h : c.Reachable := ⟨_, first, _, make_eq_ok.2 ⟨rfl, rfl⟩, rfl⟩
  have hqueue : c.queue.length = 1 := by
    have hq : (first.writeRegister 0x20 0).flush.queue = .empty := queue_flush _
    have hc : (first.writeRegister 0x20 0).flush.config = first.config :=
      congrArg Shape.config ((kept_shape first.shape).run first [.writeRegister 0x20 0, .flush] rfl)
    show ((first.writeRegister 0x20 0).flush.writeRegister 0x41 0x100).queue.length = 1
    generalize (first.writeRegister 0x20 0).flush = mid at hq hc
    obtain ⟨config, regs, frame, textures, queue, setup, modes⟩ := mid
    obtain rfl : config = first.config := hc
    obtain rfl : queue = .empty := hq
    rfl
  obtain ⟨hr, hrun⟩ := restore_and_continue c h
  exact ⟨h, hqueue, hr, hrun calls⟩

theorem exists_eq_append {a b : ByteArray} (h : a.data.toList <+: b.data.toList) : ∃ rest, b = a ++ rest := by
  obtain ⟨l, hl⟩ := h
  refine ⟨⟨⟨l⟩⟩, ByteArray.ext (Array.toList_inj.1 ?_)⟩
  rw [ByteArray.toList_data_append, ← hl]

theorem start_append (a rest : ByteArray) : a.data.toList <+: (a ++ rest).data.toList := by
  rw [ByteArray.toList_data_append]
  exact List.prefix_append _ _

/-- **A saved state has one form, and its end is known from its content.** What is restored from some bytes is saved as a
first part of them, which is all that was read, and every continuation of that part is restored alike. So no first part
of the saved state of a reachable chip can be read, except the whole. -/
theorem save_canonical :
    (∀ (bytes : ByteArray) (c : Chip), restore bytes = .ok c →
      (∃ rest, bytes = c.save ++ rest) ∧
      Codec.chip.get (Reader.ofBytes bytes) = .ok (c, ⟨bytes, c.save.size, 0⟩) ∧
      ∀ rest, restore (c.save ++ rest) = .ok c) ∧
    ∀ (c : Chip), c.Reachable → ∀ start rest : ByteArray, c.save = start ++ rest → rest ≠ ByteArray.empty →
      ∃ cause, restore start = .error (.unreadable cause) := by
  refine ⟨fun bytes c h => ?_, ?_⟩
  · obtain ⟨hp, hg⟩ := get_of_restore h
    exact ⟨exists_eq_append hp, hg, fun rest => restore_extended h (start_append _ _)⟩
  · intro c h start rest hsplit hrest
    have hsave : c.uncached.save = start ++ rest := (save_uncached c).trans hsplit
    have hpos : rest.size ≠ 0 := fun h0 => hrest (ByteArray.size_eq_zero_iff.1 h0)
    refine restore_cut (c := c.uncached) ?_ ?_ ?_
    · rw [save_uncached]
      exact restore_save c h
    · rw [hsave]
      exact start_append _ _
    · rw [hsave, ByteArray.size_append]
      omega

/-- a new chip, with bytes behind its saved state and with the last byte missing -/
theorem save_canonical_standard :
    let c : Chip := initial ChipConfig.standard
    let start : ByteArray := c.save.extract 0 (c.save.size - 1)
    let last : ByteArray := c.save.extract (c.save.size - 1) c.save.size
    c.Reachable ∧ restore c.save = .ok c ∧ restore (c.save ++ ⟨#[1, 2, 3]⟩) = .ok c ∧
      c.save = start ++ last ∧ last ≠ ByteArray.empty ∧ ∃ cause, restore start = .error (.unreadable cause) := by
  intro c
  have h : c.Reachable := ⟨_, c, [], make_eq_ok.2 ⟨rfl, rfl⟩, rfl⟩
  have hr : restore c.save = .ok c := restore_save c h
  have hpos : c.save.size ≠ 0 := by
    intro h0
    rw [ByteArray.size_eq_zero_iff.1 h0] at hr
    cases hr
  clear_value c
  intro start last
  have hsplit : c.save = start ++ last := by
    rw [← ByteArray.extract_eq_extract_append_extract (c.save.size - 1) (Nat.zero_le _) (Nat.sub_le _ _),
      ByteArray.extract_zero_size]
  have hlast : last ≠ ByteArray.empty := by
    intro he
    have hs := congrArg ByteArray.size he
    rw [ByteArray.size_extract] at hs
    simp only [ByteArray.size_empty] at hs
    omega
  obtain ⟨hform, hcut⟩ := save_canonical
  exact ⟨h, hr, (hform c.save c hr).2.2 _, hsplit, hlast, hcut c h start last hsplit hlast⟩

end Accel3D.Chip
