/-
What the counter of pending swaps counts on Voodoo 1 and 2.

There is one record of a synced swap that waits for its retrace, and a counter that every swap command raises and
every swap carried out lowers. A command that comes while a synced swap waits overtakes it (`overtakes`): the record
is replaced or cleared, and one count is left over that no retrace takes away. So the counter is the number of
commands that overtook a swap, and one more while a swap waits; without such a command it is positive exactly while a
swap waits.

The swap that waits is carried out once enough retraces have come, unless its interval is above 250, where the count of
retraces stops (`SwapState.Stuck`).

Results: `swap_act` (what an action does to the swaps), `counts_foldl` (the count after any actions), `pending_swaps`
(the same after every run, and when retraces bring the counter back to 0).
-/
import Mathlib.Logic.Function.Iterate
import Accel3D.Proofs.Display

namespace Accel3D

/-! ## One swap -/

namespace SwapState

/-- a swap command, carried out at once when bit 0 is clear -/
def commanded (s : SwapState) (data : UInt32) : SwapState :=
  if bit data 0 then s.command data else (s.command data).finish

def atRetrace (s : SwapState) : SwapState := if s.retrace.isDue then s.retrace.finish else s.retrace

/-- the counter shows `n` swaps beyond the one that waits -/
def Counts (s : SwapState) (n : Nat) : Prop := s.pending.toNat = n + s.syncPending.toNat

theorem Counts.commanded {s : SwapState} {n : Nat} (h : s.Counts n) (data : UInt32)
    (hlt : n + s.syncPending.toNat < 2 ^ 32 - 1) : (s.commanded data).Counts (n + s.syncPending.toNat) := by
  unfold Counts at h
  have hp : (s.pending + 1).toNat = s.pending.toNat + 1 := by
    rw [UInt32.toNat_add, UInt32.toNat_one]
    omega
  unfold SwapState.commanded
  split
  · show (s.pending + 1).toNat = _ + 1
    omega
  · have hne : s.pending + 1 ≠ 0 := fun h0 => by
      have := congrArg UInt32.toNat h0
      rw [hp] at this
      exact absurd this (Nat.succ_ne_zero _)
    show (if s.pending + 1 = 0 then 0 else s.pending + 1 - 1).toNat = _ + 0
    rw [if_neg hne, UInt32.add_sub_cancel]
    omega

theorem Counts.atRetrace {s : SwapState} {n : Nat} (h : s.Counts n) : s.atRetrace.Counts n := by
  unfold Counts at h
  unfold SwapState.atRetrace
  split
  · rename_i hdue
    have hs : s.syncPending = true := (Bool.and_eq_true_iff.1 hdue).1
    rw [hs] at h
    have hne : s.pending ≠ 0 := fun h0 => by
      rw [h0] at h
      exact absurd h (by simp)
    have hle : (1 : UInt32) ≤ s.pending := by
      rw [UInt32.le_iff_toNat_le, UInt32.toNat_one]
      simp only [Bool.toNat_true] at h
      omega
    show (if s.pending = 0 then 0 else s.pending - 1).toNat = n + 0
    rw [if_neg hne, UInt32.toNat_sub_of_le _ _ hle, UInt32.toNat_one]
    simp only [Bool.toNat_true] at h
    omega
  · exact h

theorem retraces_commanded {s : SwapState} (h : s.retraces ≤ 250) (data : UInt32) :
    (s.commanded data).retraces ≤ 250 := by
  unfold commanded
  split
  · exact h
  · exact (by decide : (0 : UInt32) ≤ 250)

theorem retraces_retrace {s : SwapState} (h : s.retraces ≤ 250) : s.retrace.retraces ≤ 250 := by
  unfold retrace
  split
  · rename_i hlt
    rw [UInt32.lt_iff_toNat_lt] at hlt
    rw [UInt32.le_iff_toNat_le, UInt32.toNat_add, UInt32.toNat_one]
    have : (250 : UInt32).toNat = 250 := rfl
    omega
  · exact h

theorem retraces_atRetrace {s : SwapState} (h : s.retraces ≤ 250) : s.atRetrace.retraces ≤ 250 := by
  unfold atRetrace
  split
  · exact (by decide : (0 : UInt32) ≤ 250)
  · exact retraces_retrace h

/-- a swap waits for an interval that the count of retraces never reaches -/
def Stuck (s : SwapState) : Prop := s.syncPending = true ∧ 250 < s.interval ∧ s.retraces ≤ 250

theorem Stuck.atRetrace {s : SwapState} (h : s.Stuck) : s.atRetrace.Stuck := by
  obtain ⟨hs, hi, hr⟩ := h
  have hle := retraces_retrace hr
  have hdue : s.retrace.isDue = false := by
    show (s.syncPending && decide (s.interval ≤ s.retrace.retraces)) = false
    rw [hs, Bool.true_and, decide_eq_false_iff_not, UInt32.not_le]
    exact UInt32.lt_of_le_of_lt hle hi
  rw [SwapState.atRetrace, hdue]
  exact ⟨hs, hi, hle⟩

theorem Stuck.iterate {s : SwapState} (h : s.Stuck) (k : Nat) : (SwapState.atRetrace^[k] s).Stuck := by
  induction k generalizing s with
  | zero => exact h
  | succ k ih => exact ih h.atRetrace

/-- a swap that still waits after `k` retraces has seen them all, up to 250 -/
theorem waits_iterate (s : SwapState) (k : Nat) :
    (atRetrace^[k] s).syncPending = false ∨
      (atRetrace^[k] s).interval = s.interval ∧ min k 250 ≤ (atRetrace^[k] s).retraces.toNat := by
  induction k with
  | zero => exact .inr ⟨rfl, Nat.zero_le _⟩
  | succ k ih =>
    rw [Function.iterate_succ_apply']
    generalize atRetrace^[k] s = t at ih
    unfold atRetrace
    split
    · exact .inl rfl
    · obtain hf | ⟨hi, hk⟩ := ih
      · exact .inl hf
      · refine .inr ⟨hi, ?_⟩
        have h250 : (250 : UInt32).toNat = 250 := rfl
        show _ ≤ (if t.retraces < 250 then t.retraces + 1 else t.retraces).toNat
        split
        · rename_i hlt
          rw [UInt32.lt_iff_toNat_lt] at hlt
          rw [UInt32.toNat_add, UInt32.toNat_one]
          omega
        · rename_i hge
          rw [UInt32.not_lt, UInt32.le_iff_toNat_le] at hge
          omega

theorem atRetrace_due {s : SwapState} (h : s.syncPending = false ∨ s.interval ≤ s.retrace.retraces) :
    s.atRetrace.syncPending = false := by
  unfold atRetrace
  split
  · rfl
  · rename_i hdue
    obtain hf | hle := h
    · exact hf
    · show s.syncPending = false
      rw [isDue, Bool.and_eq_true_iff, not_and, decide_eq_true_iff] at hdue
      exact eq_false_of_ne_true fun hs => hdue hs hle

/-- enough retraces carry out a swap whose interval is at most 250 -/
theorem syncPending_iterate (s : SwapState) (h : s.interval ≤ 250) : (atRetrace^[251] s).syncPending = false := by
  rw [Function.iterate_succ_apply']
  apply atRetrace_due
  obtain hf | ⟨hi, hk⟩ := waits_iterate s 250
  · exact .inl hf
  · refine .inr ?_
    generalize atRetrace^[250] s = t at hi hk ⊢
    have hge : ¬ t.retraces < 250 := UInt32.not_lt.2 (UInt32.le_iff_toNat_le.2 hk)
    rw [hi, SwapState.retrace, if_neg hge]
    exact UInt32.le_trans h (UInt32.not_lt.1 hge)

/-- the counter is positive exactly while a swap waits, if there is none beyond it or one does wait -/
theorem Counts.pos_iff {s : SwapState} {n : Nat} (h : s.Counts n) :
    (0 < s.pending ↔ s.syncPending = true) ↔ n = 0 ∨ s.syncPending = true := by
  rw [UInt32.lt_iff_toNat_lt, show s.pending.toNat = _ from h]
  cases s.syncPending with
  | true => simp
  | false => simp [Nat.pos_iff_ne_zero]

theorem Counts.iterate {s : SwapState} {n : Nat} (h : s.Counts n) (k : Nat) : (SwapState.atRetrace^[k] s).Counts n := by
  induction k generalizing s with
  | zero => exact h
  | succ k ih => exact ih h.atRetrace

theorem Counts.pending_eq_zero {s : SwapState} {n : Nat} (h : s.Counts n) :
    s.pending = 0 ↔ n = 0 ∧ s.syncPending = false := by
  rw [← UInt32.toNat_inj, show s.pending.toNat = _ from h, UInt32.toNat_zero, Nat.add_eq_zero_iff]
  exact and_congr_right fun _ => by cases s.syncPending <;> decide

/-- retraces bring the counter to 0 if it counts nothing beyond a swap that is not stuck -/
theorem Counts.emptied_iff {s : SwapState} {n : Nat} (h : s.Counts n) (hr : s.retraces ≤ 250) :
    (∃ k, (SwapState.atRetrace^[k] s).pending = 0) ↔ n = 0 ∧ (s.syncPending = true → s.interval ≤ 250) := by
  constructor
  · rintro ⟨k, hk⟩
    obtain ⟨hn, hf⟩ := (h.iterate k).pending_eq_zero.1 hk
    refine ⟨hn, fun hs => UInt32.not_lt.1 fun hi => ?_⟩
    have hstuck : (SwapState.atRetrace^[k] s).Stuck := Stuck.iterate ⟨hs, hi, hr⟩ k
    exact absurd (hf.symm.trans hstuck.1) Bool.false_ne_true
  · rintro ⟨hn, hi⟩
    cases hs : s.syncPending with
    | false => exact ⟨0, (h.iterate 0).pending_eq_zero.2 ⟨hn, hs⟩⟩
    | true => exact ⟨251, (h.iterate 251).pending_eq_zero.2 ⟨hn, syncPending_iterate s (hi hs)⟩⟩

end SwapState

namespace FrameBuffer

/-- moving the buffers on changes their numbers or, on Banshee, the layout -/
theorem rotate_eq (f : FrameBuffer) (overlay : Option UInt32) :
    ∃ l front back, (overlay = none → l = f.layout) ∧
      f.rotate overlay = { f with layout := l, front := front, back := back } := by
  unfold rotate
  split
  · exact ⟨_, _, _, fun h => by simp at h, rfl⟩
  · split_ifs
    · exact ⟨f.layout, f.front, f.back, fun _ => rfl, rfl⟩
    · exact ⟨f.layout, _, _, fun _ => rfl, rfl⟩
    · exact ⟨f.layout, _, _, fun _ => rfl, rfl⟩

/-- what a swap command changes -/
theorem swapCommand_eq (f : FrameBuffer) (data : UInt32) (overlay : Option UInt32) :
    ∃ l front back, (overlay = none → l = f.layout) ∧
      f.swapCommand data overlay =
        { f with layout := l, front := front, back := back, swap := f.swap.commanded data } := by
  unfold swapCommand SwapState.commanded
  split
  · exact ⟨f.layout, f.front, f.back, fun _ => rfl, rfl⟩
  · obtain ⟨l, front, back, hl, e⟩ := rotate_eq { f with swap := f.swap.command data } overlay
    simp only [swapNow]
    exact ⟨l, front, back, hl, by rw [e]⟩

/-- what a retrace changes -/
theorem retrace_eq (f : FrameBuffer) (overlay : Option UInt32) :
    ∃ l front back, (overlay = none → l = f.layout) ∧
      f.retrace overlay =
        { f with layout := l, front := front, back := back, swap := f.swap.atRetrace, inRetrace := true } := by
  unfold retrace SwapState.atRetrace
  simp only
  split
  · obtain ⟨l, front, back, hl, e⟩ := rotate_eq { f with swap := f.swap.retrace, inRetrace := true } overlay
    simp only [swapNow]
    exact ⟨l, front, back, hl, by rw [e]⟩
  · exact ⟨f.layout, f.front, f.back, fun _ => rfl, rfl⟩

end FrameBuffer

namespace Chip

/-! ## The counter of pending swaps -/

/-- what an action does to the swaps -/
theorem swap_act (c : Chip) (hb : c.revision.hasBansheeLayout = false) (a : Action) :
    (c.act a).frame.swap =
      match c.swapCommand? a with
      | some data => c.frame.swap.commanded data
      | none => if a = .retrace then c.frame.swap.atRetrace else c.frame.swap := by
  cases displayChange c hb a with
  | swap data command layout display =>
    obtain ⟨l, front, back, -, e⟩ := c.frame.swapCommand_eq data none
    rw [command]
    rw [e] at display
    exact congrArg Display.swap display
  | retrace action display =>
    subst action
    obtain ⟨l, front, back, -, e⟩ := c.frame.retrace_eq none
    rw [e] at display
    exact congrArg Display.swap display
  | relayout layout command action f before v regs display =>
    rw [command]
    exact (congrArg Display.swap display).trans ((congrArg Display.swap before).trans (if_neg action).symm)
  | rest layout command action fog display =>
    rw [command]
    exact (congrArg Display.swap display).trans (if_neg action).symm

/-- a swap command carried out while a synced swap waits -/
def overtakes (c : Chip) (a : Action) : Bool := (c.swapCommand? a).isSome && c.frame.swap.syncPending

/-- how many swap commands of a list of actions overtake a synced swap -/
def overtakings (c : Chip) : List Action → Nat
  | [] => 0
  | a :: as => (c.overtakes a).toNat + (c.act a).overtakings as

theorem counts_act (c : Chip) (hb : c.revision.hasBansheeLayout = false) (a : Action) (n : Nat)
    (h : c.frame.swap.Counts n) (hlt : n + (c.overtakes a).toNat < 2 ^ 32 - 1) :
    (c.act a).frame.swap.Counts (n + (c.overtakes a).toNat) := by
  rw [swap_act c hb a]
  unfold overtakes at hlt ⊢
  cases hcommand : c.swapCommand? a with
  | some data =>
    rw [hcommand] at hlt
    exact h.commanded data hlt
  | none =>
    show (if a = .retrace then _ else _ : SwapState).Counts n
    split
    · exact h.atRetrace
    · exact h

/-- after any actions the counter is one up for every overtaking, and for the swap that waits -/
theorem counts_foldl (c : Chip) (hb : c.revision.hasBansheeLayout = false) (as : List Action) (n : Nat)
    (h : c.frame.swap.Counts n) (hlt : n + c.overtakings as < 2 ^ 32 - 1) :
    (as.foldl act c).frame.swap.Counts (n + c.overtakings as) := by
  induction as generalizing c n with
  | nil => exact h
  | cons a as ih =>
    rw [overtakings, ← Nat.add_assoc] at hlt ⊢
    exact ih (c.act a) (notBanshee_act hb a) _ (counts_act c hb a n h (by omega)) hlt

/-- what a swap command and a retrace keep of the swaps, all actions keep -/
theorem swap_foldl {P : SwapState → Prop} (hcommand : ∀ s data, P s → P (s.commanded data))
    (hretrace : ∀ s, P s → P s.atRetrace) (c : Chip) (hb : c.revision.hasBansheeLayout = false) (as : List Action)
    (h : P c.frame.swap) : P (as.foldl act c).frame.swap := by
  induction as generalizing c with
  | nil => exact h
  | cons a as ih =>
    refine ih (c.act a) (notBanshee_act hb a) ?_
    rw [swap_act c hb a]
    split
    · exact hcommand _ _ h
    · split
      · exact hretrace _ h
      · exact h

/-- retraces with nothing between them -/
theorem swap_retraces (c : Chip) (hb : c.revision.hasBansheeLayout = false) (k : Nat) :
    ((List.replicate k Action.retrace).foldl act c).frame.swap = SwapState.atRetrace^[k] c.frame.swap := by
  induction k generalizing c with
  | zero => rfl
  | succ k ih =>
    rw [List.replicate_succ, List.foldl_cons, ih _ (notBanshee_act hb _), swap_act c hb]
    rfl

/-- **What the counter of pending swaps counts.** After every run it is one up for each command that overtook a synced
swap, and for the swap that waits. So it is positive exactly while a swap waits if and only if nothing was overtaken
or a swap does wait; what was overtaken stays counted whatever comes after; and retraces bring the counter back to 0
if and only if nothing was overtaken and the swap that waits, if one does, has an interval of at most 250. -/
theorem pending_swaps (config : ChipConfig) (hb : config.revision.hasBansheeLayout = false) (calls : List Call)
    (hlt : (initial config).overtakings ((initial config).history calls) < 2 ^ 32 - 1) :
    let c := ((initial config).runCalls calls).1
    let n := (initial config).overtakings ((initial config).history calls)
    c.frame.swap.pending.toNat = n + c.frame.swap.syncPending.toNat ∧
    ((0 < c.frame.swap.pending ↔ c.frame.swap.syncPending = true) ↔ n = 0 ∨ c.frame.swap.syncPending = true) ∧
    (∀ more, n + c.overtakings more < 2 ^ 32 - 1 → n ≤ (more.foldl act c).frame.swap.pending.toNat) ∧
    ((∃ k, ((List.replicate k .retrace).foldl act c).frame.swap.pending = 0) ↔
      n = 0 ∧ (c.frame.swap.syncPending = true → c.frame.swap.interval ≤ 250)) := by
  intro c n
  have hc : c.frame = (((initial config).history calls).foldl act (initial config)).frame := frame_run _ calls
  have hrev : c.revision.hasBansheeLayout = false := by
    rw [show c.revision = config.revision from revision_run _ calls, hb]
  have hcounts : c.frame.swap.Counts n := by
    have h := counts_foldl (initial config) hb ((initial config).history calls) 0 rfl (by rwa [Nat.zero_add])
    rwa [← hc, Nat.zero_add] at h
  have hbound : c.frame.swap.retraces ≤ 250 := by
    rw [hc]
    exact swap_foldl (P := fun s => s.retraces ≤ 250) (fun s data h => SwapState.retraces_commanded h data)
      (fun s h => SwapState.retraces_atRetrace h) (initial config) hb _ (show (0 : UInt32) ≤ 250 by decide)
  have hmore : ∀ more, n + c.overtakings more < 2 ^ 32 - 1 →
      (more.foldl act c).frame.swap.Counts (n + c.overtakings more) :=
    fun more h => counts_foldl c hrev more n hcounts h
  refine ⟨hcounts, hcounts.pos_iff, fun more h => ?_, ?_⟩
  · exact Nat.le_trans (Nat.le_add_right n _) (Nat.le_trans (Nat.le_add_right _ _) (Nat.le_of_eq (hmore more h).symm))
  · simp only [swap_retraces c hrev]
    exact hcounts.emptied_iff hbound

/-- two synced swap commands in a row, and the retraces after them -/
theorem pending_swaps_overtaken :
    let calls : List Call := [.writeRegister 0x4A 0x201, .writeRegister 0x4A 0x201, .retrace]
    let c := ((initial ChipConfig.standard).runCalls calls).1
    c.frame.swap.pending.toNat = 1 + c.frame.swap.syncPending.toNat ∧
    ∀ k, ((List.replicate k .retrace).foldl act c).frame.swap.pending ≠ 0 := by
  intro calls c
  have hn : (initial ChipConfig.standard).overtakings ((initial ChipConfig.standard).history calls) = 1 := by
    decide +kernel
  obtain ⟨hcount, -, -, hretraces⟩ := pending_swaps ChipConfig.standard rfl calls (by rw [hn]; decide)
  rw [hn] at hcount hretraces
  exact ⟨hcount, fun k hk => absurd (hretraces.1 ⟨k, hk⟩).1 (by decide)⟩

/-- a swap is counted and none waits -/
theorem pending_without_sync :
    let calls : List Call := [.writeRegister 0x4A 0x201, .writeRegister 0x4A 0x201, .retrace]
    let c := ((initial ChipConfig.standard).runCalls calls).1
    0 < c.frame.swap.pending ∧ c.frame.swap.syncPending = false := by
  decide +kernel

end Chip
end Accel3D
