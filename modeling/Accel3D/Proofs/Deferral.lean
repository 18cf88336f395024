/-
Deferred writes cannot be told from immediate ones.

The chip that a host of deferred writes drives is compared with the same chip drained (`drained`): its queue carried out
and its writes no longer deferred. Draining commutes with every call, and a chip and its drained form answer every call
alike: a call that empties the queue first sees the drained chip, and the calls that do not (the end of a retrace, reads
and writes that the access rights refuse) see nothing that a waiting write could change. A drained chip takes no notice
of a flush, so neither does the host of a chip that is not drained.

Main result: `deferral_transparent`.
-/
import Accel3D.Proofs.Shape

namespace Accel3D

def withoutFlushes (calls : List Call) : List Call := calls.filter (· ≠ .flush)

namespace Chip

def withDefer (c : Chip) (b : Bool) : Chip := { c with config := { c.config with deferWrites := b } }

/-- the chip once its queue is carried out, with writes no longer deferred -/
def drained (c : Chip) : Chip := c.flush.withDefer false

/-! ## The flag and the register writes -/

theorem execute_withDefer (c : Chip) (b : Bool) (w : RegisterWrite) :
    (c.withDefer b).execute w = (c.execute w).withDefer b := by
  show (c.withHost { c.host with deferWrites := b }).execute w =
    (c.execute w).withHost { (c.execute w).host with deferWrites := b }
  rw [execute_withHost, host_execute]

theorem endRetrace_execute (c : Chip) (w : RegisterWrite) : c.endRetrace.execute w = (c.execute w).endRetrace := by
  show (c.withHost { c.host with inRetrace := false }).execute w =
    (c.execute w).withHost { (c.execute w).host with inRetrace := false }
  rw [execute_withHost, host_execute]

theorem endRetrace_flush (c : Chip) : c.endRetrace.flush = c.flush.endRetrace := by
  rw [flush_eq, flush_eq]
  show (c.queue.writes.foldl execute c.endRetrace).withQueue .empty = _
  rw [List.foldl_hom (f := endRetrace) endRetrace_execute]
  rfl

/-! ## Drained chips -/

theorem queue_drained (c : Chip) : c.drained.queue = .empty := queue_flush c

theorem drained_of_idle (c : Chip) (hq : c.queue = .empty) (hd : c.config.deferWrites = false) : c.drained = c := by
  rw [drained, flush_of_empty c hq]
  show { c with config := { c.config with deferWrites := false } } = c
  rw [← hd]

theorem drained_flush (c : Chip) : c.flush.drained = c.drained := by rw [drained, flush_flush, drained]

theorem drained_drained (c : Chip) : c.drained.drained = c.drained := drained_of_idle _ (queue_drained c) rfl

theorem flush_drained (c : Chip) : c.drained.flush = c.drained := flush_of_empty _ (queue_drained c)

theorem revision_drained (c : Chip) : c.drained.revision = c.revision :=
  show c.flush.config.revision = c.config.revision by rw [config_flush]

/-- what is done to a flushed chip with no look at the flag, and keeps the queue empty, commutes with draining -/
theorem drained_apply (f : Chip → Chip) (c : Chip) (hd : f (c.flush.withDefer false) = (f c.flush).withDefer false)
    (hq : (f c.flush).queue = c.flush.queue) : (f c.flush).drained = f c.drained := by
  rw [drained, drained, hd, flush_of_empty _ (hq.trans (queue_flush c))]

theorem withDefer_of_commute {f : Chip → Chip} (hf : ∀ c h m, f (withSide c h m) = (f c).withSide h m) (c : Chip)
    (b : Bool) : f (c.withDefer b) = (f c).withDefer b := by
  have hself : f c = (f c).withSide c.host c.modes := hf c c.host c.modes
  calc f (c.withDefer b)
      = (f c).withSide { c.host with deferWrites := b } c.modes := hf c { c.host with deferWrites := b } c.modes
    _ = ((f c).withSide c.host c.modes).withDefer b := rfl
    _ = (f c).withDefer b := by rw [← hself]

/-! ## One call -/

theorem drained_writeRegister (c : Chip) (offset data : UInt32) :
    (c.writeRegister offset data).drained = c.drained.writeRegister offset data := by
  have hf : c.drained.config.deferWrites = false := rfl
  simp only [writeRegister, revision_drained, hf, Bool.false_and, flush_drained]
  cases (Access.of c.revision (Reg.ofAddress offset)).write with
  | false => rfl
  | true =>
    have he : (c.flush.execute ⟨offset, data⟩).withDefer false = c.drained.execute ⟨offset, data⟩ :=
      (execute_withDefer c.flush false ⟨offset, data⟩).symm
    cases c.config.deferWrites && (Access.of c.revision (Reg.ofAddress offset)).queued with
    | true =>
      show (c.enqueue ⟨offset, data⟩).flush.withDefer false = c.drained.execute ⟨offset, data⟩
      rw [flush_enqueue, he]
    | false =>
      show (c.flush.execute ⟨offset, data⟩).flush.withDefer false = c.drained.execute ⟨offset, data⟩
      rw [flush_execute _ _ (queue_flush c), he]

theorem drained_readRegister (c : Chip) (offset : UInt32) :
    (c.readRegister offset).2 = (c.drained.readRegister offset).2 ∧
      (c.readRegister offset).1.drained = (c.drained.readRegister offset).1 := by
  simp only [readRegister, revision_drained, flush_drained]
  split_ifs
  · exact ⟨rfl, drained_flush c⟩
  · exact ⟨rfl, rfl⟩

/-- a call commutes with draining, and reads the same value from the drained chip -/
theorem drained_step (c : Chip) (call : Call) :
    (c.step call).2 = (c.drained.step call).2 ∧ (c.step call).1.drained = (c.drained.step call).1 := by
  cases call with
  | writeRegister offset data => exact ⟨rfl, drained_writeRegister c offset data⟩
  | readRegister offset =>
    obtain ⟨hv, hd⟩ := drained_readRegister c offset
    exact ⟨congrArg some hv, hd⟩
  | writeTexture offset data =>
    refine ⟨rfl, ?_⟩
    show _ = c.drained.flush.modifyTexture _ _
    rw [flush_drained]
    exact drained_apply (fun c => c.modifyTexture (field offset 19 2) fun u => u.upload offset data) c rfl rfl
  | writeLinear offset data byteMask =>
    have hd : ∀ c : Chip, (c.withDefer false).linearWrite offset data byteMask =
        (c.linearWrite offset data byteMask).withDefer false := fun c =>
      withDefer_of_commute (f := fun c => c.linearWrite offset data byteMask)
        (fun c h m => linearWrite_withSide c h m offset data byteMask) c false
    refine ⟨rfl, ?_⟩
    show _ = c.drained.flush.linearWrite offset data byteMask
    rw [flush_drained]
    exact drained_apply (fun c => c.linearWrite offset data byteMask) c (hd _) (queue_linearWrite _ _ _ _)
  | readLinear offset =>
    refine ⟨?_, drained_flush c |>.trans (flush_drained c).symm⟩
    show some (c.flush.linearRead offset) = some (c.drained.flush.linearRead offset)
    rw [flush_drained]
    rfl
  | retrace =>
    refine ⟨rfl, ?_⟩
    show _ = c.drained.flush.modifyFrame fun f => f.retrace c.drained.flush.overlay
    rw [flush_drained]
    exact drained_apply (fun c => c.modifyFrame fun f => f.retrace c.overlay) c rfl rfl
  | endRetrace =>
    refine ⟨rfl, ?_⟩
    show c.endRetrace.flush.withDefer false = c.drained.endRetrace
    rw [endRetrace_flush]
    rfl
  | flush => exact ⟨rfl, drained_flush c |>.trans (flush_drained c).symm⟩

/-! ## Runs -/

theorem drained_run (c : Chip) (calls : List Call) :
    (c.runCalls calls).2 = (c.drained.runCalls calls).2 ∧
      (c.runCalls calls).1.drained = (c.drained.runCalls calls).1 :=
  runCalls_simulation (R := fun c d => c.drained = d)
    (fun c _ call h => h ▸ drained_step c call) c c.drained rfl calls

theorem run_withoutFlushes (c : Chip) (h : c.drained = c) (calls : List Call) :
    c.runCalls (withoutFlushes calls) = c.runCalls calls := by
  induction calls generalizing c with
  | nil => rfl
  | cons call calls ih =>
    by_cases hc : call = .flush
    · have hs : c.step call = (c, none) := by
        rw [hc, ← h]
        show (c.drained.flush, none) = _
        rw [flush_drained]
      rw [runCalls_cons, hs, withoutFlushes, List.filter_cons_of_neg (by simpa using hc)]
      exact ih c h
    · have hd : (c.step call).1.drained = (c.step call).1 := by
        have e := (drained_step c call).2
        rwa [h] at e
      rw [withoutFlushes, List.filter_cons_of_pos (by simpa using hc), runCalls_cons, runCalls_cons]
      rw [← ih _ hd]
      rfl

/-- a run reads the same values and ends in the same drained chip, whatever flushes are put in or left out -/
theorem drained_run_congr (c : Chip) (calls calls' : List Call) (h : withoutFlushes calls = withoutFlushes calls') :
    (c.runCalls calls).2 = (c.runCalls calls').2 ∧
      (c.runCalls calls).1.drained = (c.runCalls calls').1.drained := by
  obtain ⟨hv, hd⟩ := drained_run c calls
  obtain ⟨hv', hd'⟩ := drained_run c calls'
  rw [hv, hd, hv', hd', ← run_withoutFlushes _ (drained_drained c) calls, h,
    run_withoutFlushes _ (drained_drained c) calls']
  exact ⟨rfl, rfl⟩

theorem flush_eq_drained (c : Chip) : c.flush = c.drained.withDefer c.config.deferWrites := by
  have h : c.flush = c.flush.withDefer c.flush.config.deferWrites := rfl
  rwa [config_flush] at h

/-- a run and a flush leave what the same run leaves of the drained chip, whatever flushes are put in or left out -/
theorem flush_run (c : Chip) (calls calls' : List Call) (h : withoutFlushes calls = withoutFlushes calls') :
    (c.runCalls calls).1.flush = (c.drained.runCalls calls').1.flush.withDefer c.config.deferWrites := by
  rw [flush_eq_drained, config_run, (drained_run_congr c calls calls' h).2, ← (drained_run c calls').2, flush_drained]

theorem drained_initial (config : ChipConfig) (b : Bool) :
    (initial { config with deferWrites := b }).drained = initial { config with deferWrites := false } := by
  rw [drained, flush_of_empty _ rfl]
  rfl

/-- **Deferred writes cannot be told from immediate ones.** On the two chips of a configuration, whatever flushes are
put in or left out, a run reads the same values and leaves the same state after a flush, up to the flag itself; and at
most 64 writes wait at any time. -/
theorem deferral_transparent (config : ChipConfig) (hv : config.validate = .ok ()) :
    ∃ deferred immediate : Chip,
      make { config with deferWrites := true } = .ok deferred ∧
      make { config with deferWrites := false } = .ok immediate ∧
      ∀ calls calls' : List Call, withoutFlushes calls = withoutFlushes calls' →
        (deferred.runCalls calls).2 = (immediate.runCalls calls').2 ∧
        (deferred.runCalls calls).1.queue.length ≤ 64 ∧
        (deferred.runCalls calls).1.flush = (immediate.runCalls calls').1.flush.withDefer true ∧
        (deferred.runCalls calls).2 = (deferred.runCalls calls').2 ∧
        (deferred.runCalls calls).1.flush = (deferred.runCalls calls').1.flush := by
  refine ⟨initial { config with deferWrites := true }, initial { config with deferWrites := false },
    make_eq_ok.2 ⟨hv, rfl⟩, make_eq_ok.2 ⟨hv, rfl⟩, fun calls calls' h => ?_⟩
  have hvalues := (drained_run_congr (initial { config with deferWrites := true }) calls calls' h).1
  have hread := (drained_run (initial { config with deferWrites := true }) calls').1
  have hend := flush_run (initial { config with deferWrites := true }) calls calls' h
  have hend' := flush_run (initial { config with deferWrites := true }) calls' calls' rfl
  rw [drained_initial] at hread hend hend'
  exact ⟨hvalues.trans hread, queue_run_le _ calls (Nat.zero_le _), hend, hvalues, hend.trans hend'.symm⟩

/-- writes that wait, a triangle among them, one that is carried out at once, and a read -/
theorem deferral_transparent_standard :
    let calls : List Call := [.writeRegister 0x41 0x20, .flush, .writeRegister 0x20 0, .endRetrace,
      .writeRegister 0x82 1, .writeRegister 0x44 0x200, .flush, .readRegister 0x44]
    let calls' : List Call := [.writeRegister 0x41 0x20, .writeRegister 0x20 0, .flush, .endRetrace,
      .writeRegister 0x82 1, .writeRegister 0x44 0x200, .readRegister 0x44]
    ∃ deferred immediate : Chip,
      make { ChipConfig.standard with deferWrites := true } = .ok deferred ∧
      make { ChipConfig.standard with deferWrites := false } = .ok immediate ∧
      (deferred.runCalls calls).2 = (immediate.runCalls calls').2 ∧
      (deferred.runCalls calls).1.queue.length ≤ 64 ∧
      (deferred.runCalls calls).1.flush = (immediate.runCalls calls').1.flush.withDefer true ∧
      (deferred.runCalls calls).1.flush = (deferred.runCalls calls').1.flush := by
  intro calls calls'
  obtain ⟨deferred, immediate, hd, hi, h⟩ := deferral_transparent ChipConfig.standard rfl
  obtain ⟨hvalues, hqueue, hend, -, hflush⟩ := h calls calls' (by decide)
  exact ⟨deferred, immediate, hd, hi, hvalues, hqueue, hend, hflush⟩

end Chip
end Accel3D
