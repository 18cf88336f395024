/-
What a run carries out.

A call is made of actions: the register writes that are carried out, uploads, linear writes, and the start and the end
of a retrace. Which actions a call is made of depends on the queue, so a write may be carried out by a later call than
the one that asked for it. No action sees the queue. So a run leaves, up to its queue, what its actions leave when they
are done one after the other (`run_eq_foldl`), and what holds after every list of actions holds after every run. What
every action keeps between two chips is kept by two runs of the same calls (`KeptTogether.run`).
-/
import Accel3D.Proofs.Run

namespace Accel3D

/-- what calls are made of -/
inductive Action where
  | write (w : RegisterWrite)
  | upload (unit : Nat) (offset data : UInt32)
  | linearWrite (offset data byteMask : UInt32)
  | retrace
  | endRetrace
deriving DecidableEq, Repr

namespace Chip

def act (c : Chip) : Action → Chip
  | .write w => c.execute w
  | .upload i offset data => c.modifyTexture i fun u => u.upload offset data
  | .linearWrite offset data byteMask => c.linearWrite offset data byteMask
  | .retrace => c.modifyFrame fun f => f.retrace c.overlay
  | .endRetrace => c.endRetrace

def waiting (c : Chip) : List Action := c.queue.writes.map .write

def actions (c : Chip) : Call → List Action
  | .writeRegister offset data =>
    let access := Access.of c.revision (Reg.ofAddress offset)
    if !access.write then []
    else if c.config.deferWrites && access.queued then (if c.queue.isFull then c.waiting else [])
    else c.waiting ++ [.write ⟨offset, data⟩]
  | .readRegister offset => if (Access.of c.revision (Reg.ofAddress offset)).read then c.waiting else []
  | .writeTexture offset data => c.waiting ++ [.upload (field offset 19 2) offset data]
  | .writeLinear offset data byteMask => c.waiting ++ [.linearWrite offset data byteMask]
  | .readLinear _ => c.waiting
  | .retrace => c.waiting ++ [.retrace]
  | .endRetrace => [.endRetrace]
  | .flush => c.waiting

def history (c : Chip) : List Call → List Action
  | [] => []
  | call :: calls => c.actions call ++ (c.step call).1.history calls

/-! ## No action sees the queue -/

theorem act_withQueue (c : Chip) (q : WriteQueue) (a : Action) : (c.withQueue q).act a = (c.act a).withQueue q := by
  cases a with
  | write w => exact execute_withQueue c q w
  | linearWrite offset data byteMask =>
    have e := linearWrite_withSide c { c.host with queue := q } c.modes offset data byteMask
    have hself := linearWrite_withSide c c.host c.modes offset data byteMask
    rw [withSide_self] at hself
    show (c.withSide { c.host with queue := q } c.modes).linearWrite offset data byteMask = _
    rw [e]
    show _ = ((c.linearWrite offset data byteMask).withQueue q)
    rw [hself]
    rfl
  | upload i offset data => rfl
  | retrace => rfl
  | endRetrace => rfl

theorem foldl_act_withQueue (as : List Action) (c : Chip) (q : WriteQueue) :
    as.foldl act (c.withQueue q) = (as.foldl act c).withQueue q :=
  List.foldl_hom (f := fun c => c.withQueue q) fun c a => act_withQueue c q a

theorem flush_eq_foldl (c : Chip) : c.flush = (c.waiting.foldl act c).withQueue .empty := by
  rw [flush_eq, waiting, List.foldl_map]
  rfl

/-! ## Calls and runs as lists of actions -/

/-- a call leaves, up to its queue, what its actions leave -/
theorem step_eq_foldl (c : Chip) (call : Call) : ∃ q, (c.step call).1 = ((c.actions call).foldl act c).withQueue q := by
  -- an action after a flush is an action after the writes that waited
  have hafter : ∀ a, c.flush.act a = ((c.waiting ++ [a]).foldl act c).withQueue .empty := fun a => by
    rw [flush_eq_foldl, act_withQueue, List.foldl_append]
    rfl
  cases call with
  | writeRegister offset data =>
    simp only [step, writeRegister, actions]
    split_ifs with hw hq hf
    · exact ⟨c.queue, rfl⟩
    · rw [enqueue, if_pos hf, flush_eq_foldl]
      exact ⟨_, rfl⟩
    · rw [enqueue, if_neg hf]
      exact ⟨_, rfl⟩
    · exact ⟨_, hafter (.write ⟨offset, data⟩)⟩
  | readRegister offset =>
    simp only [step, readRegister, actions]
    split_ifs
    · exact ⟨_, flush_eq_foldl c⟩
    · exact ⟨c.queue, rfl⟩
  | writeTexture offset data => exact ⟨_, hafter (.upload (field offset 19 2) offset data)⟩
  | writeLinear offset data byteMask => exact ⟨_, hafter (.linearWrite offset data byteMask)⟩
  | readLinear offset => exact ⟨_, flush_eq_foldl c⟩
  | retrace => exact ⟨_, hafter .retrace⟩
  | endRetrace => exact ⟨c.queue, rfl⟩
  | flush => exact ⟨_, flush_eq_foldl c⟩

/-- **A run leaves, up to its queue, what its actions leave.** -/
theorem run_eq_foldl (c : Chip) (calls : List Call) :
    ∃ q, (c.runCalls calls).1 = ((c.history calls).foldl act c).withQueue q := by
  induction calls generalizing c with
  | nil => exact ⟨c.queue, rfl⟩
  | cons call calls ih =>
    obtain ⟨q, hq⟩ := step_eq_foldl c call
    obtain ⟨q', hq'⟩ := ih (c.step call).1
    refine ⟨q', ?_⟩
    rw [runCalls_cons, hq', history, List.foldl_append]
    generalize (c.step call).1.history calls = later
    rw [hq, foldl_act_withQueue]
    rfl

theorem frame_run (c : Chip) (calls : List Call) :
    (c.runCalls calls).1.frame = ((c.history calls).foldl act c).frame := by
  obtain ⟨q, hq⟩ := run_eq_foldl c calls
  rw [hq]
  rfl

/-! ## Two runs side by side -/

/-- a relation between chips of one configuration and with the same queue that every action keeps, whatever the queue -/
structure KeptTogether (R : Chip → Chip → Prop) : Prop where
  config : ∀ c d, R c d → c.config = d.config
  queue : ∀ c d, R c d → c.queue = d.queue
  withQueue : ∀ c d q, R c d → R (c.withQueue q) (d.withQueue q)
  act : ∀ c d a, R c d → R (c.act a) (d.act a)

namespace KeptTogether

variable {R : Chip → Chip → Prop} {c d : Chip}

theorem revision (hR : KeptTogether R) (h : R c d) : c.revision = d.revision :=
  congrArg ChipConfig.revision (hR.config c d h)

theorem writes (hR : KeptTogether R) (h : R c d) (ws : List RegisterWrite) :
    R (ws.foldl Chip.execute c) (ws.foldl Chip.execute d) := by
  induction ws generalizing c d with
  | nil => exact h
  | cons w ws ih => exact ih (hR.act c d (.write w) h)

theorem flush (hR : KeptTogether R) (h : R c d) : R c.flush d.flush := by
  rw [flush_eq, flush_eq, hR.queue c d h]
  exact hR.withQueue _ _ _ (hR.writes h _)

theorem enqueue (hR : KeptTogether R) (h : R c d) (w : RegisterWrite) : R (c.enqueue w) (d.enqueue w) := by
  have hpush : ∀ {c d : Chip}, R c d → R (c.withQueue (c.queue.push w)) (d.withQueue (d.queue.push w)) := by
    intro c d h
    rw [hR.queue c d h]
    exact hR.withQueue _ _ _ h
  have hroom : R (if c.queue.isFull then c.flush else c) (if d.queue.isFull then d.flush else d) := by
    rw [hR.queue c d h]
    split
    · exact hR.flush h
    · exact h
  exact hpush hroom

theorem writeRegister (hR : KeptTogether R) (h : R c d) (offset data : UInt32) :
    R (c.writeRegister offset data) (d.writeRegister offset data) := by
  simp only [Chip.writeRegister]
  rw [hR.revision h, hR.config c d h]
  split_ifs
  · exact h
  · exact hR.enqueue h _
  · exact hR.act _ _ (.write ⟨offset, data⟩) (hR.flush h)

theorem step (hR : KeptTogether R) (h : R c d) (call : Call) : R (c.step call).1 (d.step call).1 := by
  have hflush := hR.flush h
  cases call with
  | writeRegister offset data => exact hR.writeRegister h offset data
  | readRegister offset =>
    simp only [Chip.step, Chip.readRegister]
    rw [hR.revision h]
    split_ifs
    · exact hflush
    · exact h
  | writeTexture offset data => exact hR.act _ _ (.upload (field offset 19 2) offset data) hflush
  | writeLinear offset data byteMask => exact hR.act _ _ (.linearWrite offset data byteMask) hflush
  | readLinear offset => exact hflush
  | retrace => exact hR.act _ _ .retrace hflush
  | endRetrace => exact hR.act _ _ .endRetrace h
  | flush => exact hflush

/-- **What every action keeps between two chips, every run keeps.** -/
theorem run (hR : KeptTogether R) (h : R c d) (calls : List Call) : R (c.runCalls calls).1 (d.runCalls calls).1 := by
  induction calls generalizing c d with
  | nil => exact h
  | cons call calls ih => exact ih (hR.step h call)

end KeptTogether
end Chip
end Accel3D
