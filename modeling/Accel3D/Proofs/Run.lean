/-
Runs of the chip, and what holds in every state that a run reaches.

A call to the chip does a few things only: it carries out register writes, changes the queue, uploads to a texture unit,
writes through the linear frame buffer, or starts or ends a retrace. A property that each of these keeps (`Kept`) is
kept by every call and every run, so it holds in every reachable state once it holds in every new chip.

Results: `flush_eq` (emptying the queue is carrying out its writes in order); `flush_push` (a write put in the queue is
carried out last); `Kept.run` (what every call keeps, every run keeps); `runCalls_simulation` (a relation under which two
chips answer each call alike makes them answer every run alike); `queue_length_reachable` (the queue never holds more than
64 writes).
-/
import Mathlib.Tactic.SplitIfs
import Accel3D.Proofs.HostSide

namespace Accel3D.Chip

/-! ## The queue -/

def withQueue (c : Chip) (q : WriteQueue) : Chip := { c with queue := q }

theorem execute_withQueue (c : Chip) (q : WriteQueue) (w : RegisterWrite) :
    (c.withQueue q).execute w = (c.execute w).withQueue q := by
  show (c.withHost { c.host with queue := q }).execute w =
    (c.execute w).withHost { (c.execute w).host with queue := q }
  rw [execute_withHost, host_execute]

theorem foldl_execute_withQueue (ws : List RegisterWrite) (c : Chip) (q : WriteQueue) :
    ws.foldl execute (c.withQueue q) = (ws.foldl execute c).withQueue q :=
  List.foldl_hom (f := fun c => c.withQueue q) fun c w => execute_withQueue c q w

theorem queue_execute (c : Chip) (w : RegisterWrite) : (c.execute w).queue = c.queue :=
  congrArg HostSide.queue (host_execute c w)

theorem queue_linearWrite (c : Chip) (offset data byteMask : UInt32) :
    (c.linearWrite offset data byteMask).queue = c.queue := by
  have e := congrArg Chip.queue (linearWrite_withSide c c.host c.modes offset data byteMask)
  rwa [withSide_self] at e

/-- the queue is emptied by carrying out its writes, oldest first -/
theorem flush_eq (c : Chip) : c.flush = (c.queue.writes.foldl execute c).withQueue .empty := by
  rw [← foldl_execute_withQueue]
  unfold flush
  split
  · rename_i hq
    rw [hq, List.foldl_nil]
    show c = c.withQueue ⟨[]⟩
    rw [← hq]
    rfl
  · rfl

theorem queue_flush (c : Chip) : c.flush.queue = .empty := by rw [flush_eq]; rfl

theorem flush_of_empty (c : Chip) (h : c.queue = .empty) : c.flush = c := by
  rw [flush_eq, h]
  show c.withQueue .empty = c
  rw [← h]
  rfl

theorem flush_flush (c : Chip) : c.flush.flush = c.flush := flush_of_empty _ (queue_flush c)

theorem flush_execute (c : Chip) (w : RegisterWrite) (h : c.queue = .empty) : (c.execute w).flush = c.execute w :=
  flush_of_empty _ (by rw [queue_execute, h])

/-- a write put in the queue is carried out after all others -/
theorem flush_push (c : Chip) (w : RegisterWrite) : (c.withQueue (c.queue.push w)).flush = c.flush.execute w := by
  rw [flush_eq, flush_eq, execute_withQueue]
  show ((c.queue.writes ++ [w]).foldl execute (c.withQueue _)).withQueue .empty = _
  rw [foldl_execute_withQueue, List.foldl_append]
  rfl

theorem flush_enqueue (c : Chip) (w : RegisterWrite) : (c.enqueue w).flush = c.flush.execute w := by
  unfold enqueue
  cases c.queue.isFull with
  | false => exact flush_push c w
  | true =>
    have e := flush_push c.flush w
    rw [flush_flush] at e
    exact e

/-- a register write, put in the queue or not, is carried out after the writes that wait -/
theorem flush_writeRegister (c : Chip) (offset data : UInt32)
    (h : (Access.of c.revision (Reg.ofAddress offset)).write = true) :
    (c.writeRegister offset data).flush = c.flush.execute ⟨offset, data⟩ := by
  simp only [writeRegister, h, Bool.not_true, Bool.false_eq_true, if_false]
  split
  · exact flush_enqueue c _
  · exact flush_execute _ _ (queue_flush c)

/-! ## Runs -/

theorem runCalls_cons (c : Chip) (call : Call) (calls : List Call) :
    c.runCalls (call :: calls) =
      (((c.step call).1.runCalls calls).1, (c.step call).2.toList ++ ((c.step call).1.runCalls calls).2) := rfl

theorem runCalls_append (c : Chip) (calls more : List Call) :
    c.runCalls (calls ++ more) =
      (((c.runCalls calls).1.runCalls more).1, (c.runCalls calls).2 ++ ((c.runCalls calls).1.runCalls more).2) := by
  induction calls generalizing c with
  | nil => rfl
  | cons call calls ih => rw [List.cons_append, runCalls_cons, ih, runCalls_cons, List.append_assoc]

/-- two chips that a relation ties, and that answer every call alike under it, answer every run alike -/
theorem runCalls_simulation {R : Chip → Chip → Prop}
    (hstep : ∀ c d call, R c d → (c.step call).2 = (d.step call).2 ∧ R (c.step call).1 (d.step call).1)
    (c d : Chip) (h : R c d) (calls : List Call) :
    (c.runCalls calls).2 = (d.runCalls calls).2 ∧ R (c.runCalls calls).1 (d.runCalls calls).1 := by
  induction calls generalizing c d with
  | nil => exact ⟨rfl, h⟩
  | cons call calls ih =>
    obtain ⟨hv, hr⟩ := hstep c d call h
    obtain ⟨iv, ir⟩ := ih _ _ hr
    rw [runCalls_cons, runCalls_cons, hv, iv]
    exact ⟨rfl, ir⟩

/-! ## Properties that every call keeps -/

/-- a property that does not look at the queue and that everything a call does keeps -/
structure Kept (P : Chip → Prop) : Prop where
  queue : ∀ c q, P c → P (c.withQueue q)
  execute : ∀ c w, P c → P (c.execute w)
  upload : ∀ c i offset data, P c → P (c.modifyTexture i fun u => u.upload offset data)
  linearWrite : ∀ c offset data byteMask, P c → P (c.linearWrite offset data byteMask)
  retrace : ∀ c overlay, P c → P (c.modifyFrame fun f => f.retrace overlay)
  endRetrace : ∀ c, P c → P c.endRetrace

namespace Kept

variable {P : Chip → Prop}

theorem writes (hP : Kept P) (ws : List RegisterWrite) (c : Chip) (h : P c) : P (ws.foldl Chip.execute c) := by
  induction ws generalizing c with
  | nil => exact h
  | cons w ws ih => exact ih _ (hP.execute c w h)

theorem flush (hP : Kept P) (c : Chip) (h : P c) : P c.flush := by
  rw [flush_eq]
  exact hP.queue _ _ (hP.writes _ c h)

theorem enqueue (hP : Kept P) (c : Chip) (w : RegisterWrite) (h : P c) : P (c.enqueue w) := by
  unfold Chip.enqueue
  split
  · exact hP.queue _ _ (hP.flush c h)
  · exact hP.queue _ _ h

theorem writeRegister (hP : Kept P) (c : Chip) (offset data : UInt32) (h : P c) : P (c.writeRegister offset data) := by
  simp only [Chip.writeRegister]
  split_ifs
  · exact h
  · exact hP.enqueue c _ h
  · exact hP.execute _ _ (hP.flush c h)

theorem step (hP : Kept P) (c : Chip) (call : Call) (h : P c) : P (c.step call).1 := by
  cases call with
  | writeRegister offset data => exact hP.writeRegister c offset data h
  | readRegister offset =>
    simp only [Chip.step, Chip.readRegister]
    split_ifs
    · exact hP.flush c h
    · exact h
  | writeTexture offset data => exact hP.upload _ _ offset data (hP.flush c h)
  | writeLinear offset data byteMask => exact hP.linearWrite _ offset data byteMask (hP.flush c h)
  | readLinear offset => exact hP.flush c h
  | retrace => exact hP.retrace _ _ (hP.flush c h)
  | endRetrace => exact hP.endRetrace c h
  | flush => exact hP.flush c h

theorem run (hP : Kept P) (c : Chip) (calls : List Call) (h : P c) : P (c.runCalls calls).1 := by
  induction calls generalizing c with
  | nil => exact h
  | cons call calls ih => exact ih _ (hP.step c call h)

end Kept

/-! ## Reachable states -/

/-- a state that some run of a new chip ends in -/
def Reachable (c : Chip) : Prop :=
  ∃ config first calls, Chip.make config = .ok first ∧ (first.runCalls calls).1 = c

theorem make_eq_ok {config : ChipConfig} {c : Chip} :
    Chip.make config = .ok c ↔ config.validate = .ok () ∧ c = initial config := by
  unfold make
  cases h : config.validate with
  | error e => simp [bind, Except.bind]
  | ok u => simp [bind, Except.bind, pure, Except.pure, eq_comm]

theorem Reachable.run (c : Chip) (h : c.Reachable) (calls : List Call) : (c.runCalls calls).1.Reachable := by
  obtain ⟨config, first, before, hmake, rfl⟩ := h
  exact ⟨config, first, before ++ calls, hmake, by rw [runCalls_append]⟩

/-! ## The bound of the queue -/

theorem queue_enqueue_le (c : Chip) (w : RegisterWrite) : (c.enqueue w).queue.length ≤ WriteQueue.capacity := by
  unfold enqueue
  cases hf : c.queue.isFull with
  | true =>
    show (c.flush.queue.push w).length ≤ WriteQueue.capacity
    rw [queue_flush, WriteQueue.length_push]
    decide
  | false =>
    show (c.queue.push w).length ≤ WriteQueue.capacity
    rw [WriteQueue.length_push]
    simp only [WriteQueue.isFull, decide_eq_false_iff_not] at hf
    omega

theorem queue_step_le (c : Chip) (call : Call) (h : c.queue.length ≤ WriteQueue.capacity) :
    (c.step call).1.queue.length ≤ WriteQueue.capacity := by
  have hflush : ∀ c : Chip, c.flush.queue.length ≤ WriteQueue.capacity := fun c => by
    rw [queue_flush]; decide
  cases call with
  | writeRegister offset data =>
    simp only [step, writeRegister]
    split_ifs
    · exact h
    · exact queue_enqueue_le c _
    · rw [queue_execute]; exact hflush c
  | readRegister offset =>
    simp only [step, readRegister]
    split_ifs
    · exact hflush c
    · exact h
  | writeLinear offset data byteMask =>
    show (c.flush.linearWrite offset data byteMask).queue.length ≤ _
    rw [queue_linearWrite]
    exact hflush c
  | endRetrace => exact h
  | _ => exact hflush c

theorem queue_run_le (c : Chip) (calls : List Call) (h : c.queue.length ≤ WriteQueue.capacity) :
    (c.runCalls calls).1.queue.length ≤ WriteQueue.capacity := by
  induction calls generalizing c with
  | nil => exact h
  | cons call calls ih => exact ih _ (queue_step_le c call h)

/-- the queue of a reachable state holds at most 64 writes -/
theorem queue_length_reachable (c : Chip) (h : c.Reachable) : c.queue.length ≤ WriteQueue.capacity := by
  obtain ⟨config, first, calls, hmake, rfl⟩ := h
  obtain ⟨-, rfl⟩ := make_eq_ok.1 hmake
  exact queue_run_le _ calls (Nat.zero_le _)

end Accel3D.Chip
