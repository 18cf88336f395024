/-
The format of a saved chip is lawful.

All parts but the memories, the texture units and the queue have a fixed size. A chip is carried when its cache is empty
and its memories, texture units and waiting writes can be counted in 64 bits, and the room that it needs is its memories
and little more.

Result: `reads_chip`.
-/
import Accel3D.Proofs.Codec
import Accel3D.Snapshot.Format

namespace Accel3D

theorem Revision.ofCode_eq_some {n : UInt32} {r : Revision} : Revision.ofCode? n = some r ↔ r.code = n := by
  refine ⟨?_, ?_⟩
  · intro h
    have hp := List.find?_some h
    exact eq_of_beq hp
  · rintro rfl
    cases r <;> rfl

namespace Codec

/-! ## Parts of a fixed size -/

theorem fixed_revision : revision.Fixed 4 := by
  refine fixed_word32.refine fun n r => ?_
  rw [← Revision.ofCode_eq_some]
  cases Revision.ofCode? n with
  | none => simp
  | some r' => simp

theorem fixed_config : config.Fixed 21 :=
  (fixed_revision.pair (fixed_word32.pair (fixed_word32.pair (fixed_word64.pair fixed_flag)))).map
    (fun _ => rfl) (fun _ => rfl)

theorem fixed_registers : registers.Fixed 2048 := (fixed_word32.vector 4 256).map (fun _ => rfl) (fun _ => rfl)

theorem fixed_layout : layout.Fixed 52 :=
  ((fixed_word32.optional.vector 8 3).pair (fixed_word32.optional.pair (fixed_word32.pair fixed_int32))).map
    (fun _ => rfl) (fun _ => rfl)

theorem fixed_fogTable : fogTable.Fixed 256 :=
  ((fixed_byte.vector 1 64).pair (fixed_byte.vector 1 64)).map (fun _ => rfl) (fun _ => rfl)

theorem fixed_swapState : swapState.Fixed 18 :=
  (fixed_word32.pair (fixed_word32.pair (fixed_flag.pair (fixed_word32.pair (fixed_flag.pair fixed_word32))))).map
    (fun _ => rfl) (fun _ => rfl)

theorem fixed_counters : counters.Fixed 28 :=
  (fixed_word32.pair (fixed_word32.pair (fixed_word32.pair (fixed_word32.pair (fixed_word32.pair
    (fixed_word32.pair fixed_word32)))))).map (fun _ => rfl) (fun _ => rfl)

theorem fixed_vertex : vertex.Fixed 4 := (fixed_int16.pair fixed_int16).map (fun _ => rfl) (fun _ => rfl)

theorem fixed_gradient {α : Type} {c : Codec α} {n : Nat} (h : c.Fixed n) : c.gradient.Fixed (n + (n + n)) :=
  (h.pair (h.pair h)).map (fun _ => rfl) (fun _ => rfl)

theorem fixed_triangle : triangle.Fixed 96 := by
  have hv : vertices.Fixed 12 := fixed_vertex.pair (fixed_vertex.pair fixed_vertex)
  have hg := fixed_gradient fixed_int32
  have hgs : gradients.Fixed 60 := hg.pair (hg.pair (hg.pair (hg.pair hg)))
  exact (hv.pair (hgs.pair (fixed_gradient fixed_int64))).map (fun _ => rfl) (fun _ => rfl)

theorem fixed_texGradients : texGradients.Fixed 72 := by
  have h : coords.Fixed 24 := fixed_int64.pair (fixed_int64.pair fixed_int64)
  exact (h.pair (h.pair h)).map (fun _ => rfl) (fun _ => rfl)

theorem fixed_texParams : texParams.Fixed 108 :=
  (fixed_int32.pair (fixed_int32.pair (fixed_int32.pair (fixed_word32.pair ((fixed_word32.vector 4 9).pair
    (fixed_word32.pair (fixed_word32.pair (fixed_int32.pair (fixed_int32.pair fixed_word32))))))))).map
    (fun _ => rfl) (fun _ => rfl)

theorem fixed_colorDifference : colorDifference.Fixed 12 :=
  (fixed_int32.pair (fixed_int32.pair fixed_int32)).map (fun _ => rfl) (fun _ => rfl)

theorem fixed_nccTable : nccTable.Fixed 2465 :=
  ((fixed_word32.vector 4 12).pair ((fixed_int32.vector 4 16).pair ((fixed_colorDifference.vector 12 4).pair
    ((fixed_colorDifference.vector 12 4).pair ((fixed_word32.vector 4 256).pair fixed_flag))))).map
    (fun _ => rfl) (fun _ => rfl)

theorem fixed_nccTables : nccTables.Fixed 7402 := by
  refine (fixed_nccTable.vector 1236 2).map (fun v => ?_) (fun _ => rfl)
  ext i hi : 1
  obtain rfl | rfl : i = 0 ∨ i = 1 := by omega
  · rfl
  · rfl

theorem fixed_textureTraits : textureTraits.Fixed 14 :=
  fixed_flag.pair (fixed_int32.pair (fixed_word32.pair (fixed_word32.pair fixed_flag)))

theorem fixed_registerWrite : registerWrite.Fixed 8 := (fixed_word32.pair fixed_word32).map (fun _ => rfl) (fun _ => rfl)

theorem fixed_setupVertex : setupVertex.Fixed 56 := by
  have w := fixed_word32
  have h := w.pair (w.pair (w.pair (w.pair (w.pair (w.pair (w.pair (w.pair (w.pair (w.pair (w.pair (w.pair (w.pair
    w))))))))))))
  dsimp only [setupVertex]
  exact h.map (fun _ => rfl) (fun _ => rfl)

theorem fixed_setupUnit : setupUnit.Fixed 340 := by
  have h : ((setupVertex.vector 56 3).pair word32).Fixed 340 := (fixed_setupVertex.vector 56 3).pair fixed_word32
  refine h.map ?_ fun _ => rfl
  intro hx
  rcases hx with ⟨v, n⟩
  refine Prod.ext ?_ rfl
  ext i hi : 1
  obtain rfl | rfl | rfl : i = 0 ∨ i = 1 ∨ i = 2 := by omega
  · rfl
  · rfl
  · rfl

/-! ## Memories, units and the queue -/

theorem reads_frame : frame.Reads (fun f => f.memory.size < 2 ^ 64) (fun f => 479 + f.memory.size) := by
  have hrest := fixed_layout.pair (fixed_word64.pair (fixed_word64.pair (fixed_fogTable.pair (fixed_swapState.pair
    (fixed_flag.pair (fixed_counters.pair (fixed_word32.pair fixed_triangle)))))))
  refine ((reads_memory.pair hrest).map fun _ _ => rfl).congr (fun f => ?_) fun f => ?_
  · exact ⟨fun h => h.1.1, fun h => ⟨⟨h, trivial⟩, rfl⟩⟩
  · show 8 + f.memory.size + 471 ≤ 479 + f.memory.size
    omega

theorem reads_textureUnit :
    textureUnit.Reads (fun u => u.memory.size < 2 ^ 64) (fun u => 13757 + u.memory.size) := by
  have hrest := fixed_registers.pair (fixed_texGradients.pair (fixed_texParams.pair (fixed_flag.pair
    (fixed_nccTables.pair ((fixed_word32.vector 4 256).pair ((fixed_word32.vector 4 256).pair fixed_textureTraits))))))
  refine ((Reads.pair fixed_word64 (reads_memory.pair hrest)).map fun _ _ => rfl).congr (fun u => ?_) fun u => ?_
  · exact ⟨fun h => h.1.2.1, fun h => ⟨⟨trivial, h, trivial⟩, rfl⟩⟩
  · show 8 + (8 + u.memory.size + 13741) ≤ 13757 + u.memory.size
    omega

theorem reads_queue : queue.Reads (fun q => q.length < 2 ^ 64) (fun q => 8 + 16 * q.length) := by
  refine ((Reads.sequence fixed_registerWrite fixed_word64 8).map fun _ _ => rfl).congr (fun q => ?_) fun q => ?_
  · simp [WriteQueue.length]
  · simp only [List.map_const', List.sum_replicate_nat, List.size_toArray, WriteQueue.length]
    omega

end Codec

/-! ## The chip -/

/-- the room that a saved chip needs: its memories and little more -/
def Chip.storedCost (c : Chip) : Nat :=
  2904 + c.frame.memory.size + c.textures.size * 5736 + (c.textures.toList.map fun u => 13757 + u.memory.size).sum +
    16 * c.queue.length

/-- a chip that a saved state can carry -/
structure Chip.Storable (c : Chip) : Prop where
  modes : c.modes = .empty
  frame : c.frame.memory.size < 2 ^ 64
  units : c.textures.size < 2 ^ 64
  textures : ∀ u ∈ c.textures.toList, u.memory.size < 2 ^ 64
  queue : c.queue.length < 2 ^ 64

/-- a chip that can be carried is read exactly where its bytes stand -/
theorem Codec.reads_chip : chip.Reads Chip.Storable Chip.storedCost := by
  have htextures := reads_textureUnit.sequence fixed_word64 5736
  have h := Reads.pair fixed_config (Reads.pair fixed_registers (reads_frame.pair (htextures.pair
    (reads_queue.pair fixed_setupUnit))))
  refine (h.map fun _ _ => rfl).congr (fun c => ?_) fun c => ?_
  · refine ⟨?_, ?_⟩
    · intro hx
      rcases hx with ⟨⟨-, -, hf, ⟨hn, ht⟩, hq, -⟩, hmodes⟩
      exact ⟨(congrArg Chip.modes hmodes).symm, hf, hn, ht, hq⟩
    · intro hx
      rcases hx with ⟨hm, hf, hn, ht, hq⟩
      refine ⟨⟨trivial, trivial, hf, ⟨hn, ht⟩, hq, trivial⟩, ?_⟩
      obtain ⟨config, regs, frame, textures, queue, setup, modes⟩ := c
      obtain rfl : modes = .empty := hm
      rfl
  · simp only [Chip.storedCost]
    omega

end Accel3D
