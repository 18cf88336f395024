/-
The history of swaps.

A swap that is carried out moves the history on by four bits and puts the count of retraces in the place that is free,
cut to 15; the count then starts again. Nothing else changes the history, on any revision, and it does not matter whether
the swap came at once or at a retrace, or whether it keeps the buffers. So each four bits of the history belong to one of
the last eight swaps and show the retraces from the swap before it on, or from the start on if there was none; the
retrace at which a swap is carried out belongs to it. That the count stops at 250 is not seen.

Results: `records_act` (one action), `records_foldl` (any actions), `sum_retraceCounts` (every retrace is in one of the
counts), `swap_history` (after every run).
-/
import Mathlib.Tactic.IntervalCases
import Accel3D.Proofs.SyncedSwap

namespace Accel3D

namespace SwapState

/-- the history shows these numbers of retraces, the one of the last swap first, and zeros after them -/
def Records (s : SwapState) (counts : List Nat) : Prop :=
  ∀ k : Fin 8, field s.history (4 * k) 4 = min 15 (counts.getD k 0)

theorem field_push (h n : UInt32) (hn : n.toNat < 16) :
    field ((h <<< 4) ||| n) 0 4 = n.toNat ∧
      ∀ k < 7, field ((h <<< 4) ||| n) (4 * (k + 1)) 4 = field h (4 * k) 4 := by
  have hword : ((h <<< 4) ||| n).toNat = 2 ^ 4 * (h.toNat % 2 ^ 28) + n.toNat := by
    have hup : (h <<< 4).toNat = 2 ^ 4 * (h.toNat % 2 ^ 28) := by
      simp [UInt32.toNat_shiftLeft, Nat.shiftLeft_eq]
      omega
    rw [UInt32.toNat_or, hup, ← Nat.two_pow_add_eq_or_of_lt (by omega)]
  simp only [field, hword, Nat.shiftRight_eq_div_pow]
  refine ⟨by omega, ?_⟩
  intro k hk
  interval_cases k <;> omega

theorem Seen.shown {s : SwapState} {n : Nat} (h : s.Seen n) :
    (if s.retraces < 15 then s.retraces else 15 : UInt32).toNat = min 15 n := by
  have h15 : (15 : UInt32).toNat = 15 := rfl
  unfold Seen at h
  split
  next hlt =>
    rw [UInt32.lt_iff_toNat_lt] at hlt
    omega
  next hge =>
    rw [UInt32.lt_iff_toNat_lt] at hge
    omega

variable {s : SwapState} {counts : List Nat} {n : Nat}

/-- a swap carried out records the retraces seen since the last one -/
theorem Records.finish (h : s.Records counts) (hseen : s.Seen n) : s.finish.Records (n :: counts) := by
  have hshown := hseen.shown
  have hpush := field_push s.history (if s.retraces < 15 then s.retraces else 15) (by omega)
  rcases hpush with ⟨hlow, hhigh⟩
  intro ⟨k, hk⟩
  cases k with
  | zero =>
    simp only [Nat.mul_zero, List.getD_cons_zero]
    exact hlow.trans hshown
  | succ k =>
    simp only [List.getD_cons_succ]
    exact (hhigh k (by omega)).trans (h ⟨k, by omega⟩)

theorem Records.commanded (h : s.Records counts) (hseen : s.Seen n) (data : UInt32) :
    (s.commanded data).Records (if bit data 0 then counts else n :: counts) := by
  have hcommand : (s.command data).Records counts := h
  have hsame : (s.command data).Seen n := hseen
  unfold SwapState.commanded
  by_cases hsync : bit data 0 = true
  · rw [if_pos hsync, if_pos hsync]
    exact hcommand
  · rw [if_neg hsync, if_neg hsync]
    exact hcommand.finish hsame

theorem Records.atRetrace (h : s.Records counts) (hseen : s.Seen n) :
    s.atRetrace.Records (if s.retrace.isDue then (n + 1) :: counts else counts) := by
  have hretrace : s.retrace.Records counts := h
  unfold SwapState.atRetrace
  by_cases hdue : s.retrace.isDue = true
  · rw [if_pos hdue, if_pos hdue]
    exact hretrace.finish hseen.retrace
  · rw [if_neg hdue, if_neg hdue]
    exact hretrace

end SwapState

namespace Chip

/-! ## The retraces before each swap -/

/-- the retraces before each swap that a list of actions carries out, from the swap before it on and with the retrace at
which it is carried out; the first swap first, and `n` retraces have come before the first action -/
def retraceCounts (c : Chip) (n : Nat) : List Action → List Nat
  | [] => []
  | a :: as =>
    let seen := if a = .retrace then n + 1 else n
    if c.carriesOut a then seen :: (c.act a).retraceCounts 0 as else (c.act a).retraceCounts seen as

theorem length_retraceCounts (c : Chip) (n : Nat) (as : List Action) :
    (c.retraceCounts n as).length = c.swapsIn as := by
  induction as generalizing c n with
  | nil => rfl
  | cons a as ih =>
    simp only [retraceCounts, swapsIn]
    cases c.carriesOut a with
    | true =>
      simp only [if_true, List.length_cons, Bool.toNat_true, ih]
      omega
    | false => simp [ih]

/-- every retrace is counted for one swap, or is one of those since the last swap -/
theorem sum_retraceCounts (c : Chip) (n : Nat) (as : List Action) :
    (c.retraceCounts n as).sum + c.retracesSince n as = n + as.count .retrace := by
  induction as generalizing c n with
  | nil => simp [retraceCounts, retracesSince]
  | cons a as ih =>
    have hcount : n + (a :: as).count .retrace = (if a = .retrace then n + 1 else n) + as.count .retrace := by
      by_cases ha : a = .retrace
      · rw [ha, List.count_cons_self, if_pos rfl]
        omega
      · rw [List.count_cons_of_ne ha, if_neg ha]
    simp only [retraceCounts, retracesSince, hcount]
    cases c.carriesOut a with
    | true =>
      have hrest := ih (c.act a) 0
      simp only [if_true, List.sum_cons]
      omega
    | false => simpa using ih (c.act a) (if a = .retrace then n + 1 else n)

/-! ## The history after actions -/

/-- one action more, in the history of swaps -/
theorem records_act (c : Chip) (a : Action) {counts : List Nat} {n : Nat} (hseen : c.frame.swap.Seen n)
    (h : c.frame.swap.Records counts) :
    (c.act a).frame.swap.Records
      (if c.carriesOut a then (if a = .retrace then n + 1 else n) :: counts else counts) := by
  obtain ⟨pending, hswap⟩ := swap_act_eq c a
  -- how many swaps are pending has no part in the history
  have hafter : (c.swapAfter a).Records
      (if c.carriesOut a then (if a = .retrace then n + 1 else n) :: counts else counts) := by
    cases hcommand : c.swapCommand? a with
    | some data =>
      have hne : a ≠ .retrace := by
        rintro rfl
        cases hcommand
      rw [swapAfter_of_command hcommand, carriesOut_of_command hcommand, if_neg hne]
      have hrecords := h.commanded hseen data
      cases hsync : bit data 0 <;> simpa [hsync] using hrecords
    | none =>
      rw [carriesOut_of_rest hcommand]
      by_cases ha : a = .retrace
      · subst ha
        simpa [swapAfter, hcommand] using h.atRetrace hseen
      · rw [swapAfter_of_rest hcommand ha]
        simpa [ha] using h
  rw [hswap]
  exact hafter

/-- **What the history shows after any actions:** what it showed before, and the retraces before each swap since. -/
theorem records_foldl (c : Chip) (as : List Action) {counts : List Nat} {n : Nat} (hseen : c.frame.swap.Seen n)
    (h : c.frame.swap.Records counts) :
    (as.foldl act c).frame.swap.Records ((c.retraceCounts n as).reverse ++ counts) := by
  induction as generalizing c n counts with
  | nil => exact h
  | cons a as ih =>
    have hrest := ih (c.act a) (seen_act c a hseen) (records_act c a hseen h)
    simp only [retraceCounts, List.foldl_cons]
    cases hout : c.carriesOut a <;> simpa [hout] using hrest

/-- **The history of swaps.** After every run, on every revision, there is a count for each swap that the run carried out,
at once or at a retrace, whether or not it kept the buffers: the retraces from the swap before it on, or from the start
on, with the retrace at which it was carried out. The counts and the retraces since the last swap add up to the retraces
of the run. Of the eight numbers of the history, from the lowest bits on, each is the count of the last swap, of the one
before it, and so on, cut to 15, and zero if there were not so many swaps. -/
theorem swap_history (config : ChipConfig) (calls : List Call) :
    let actions := (initial config).history calls
    let counts := ((initial config).retraceCounts 0 actions).reverse
    let history := ((initial config).runCalls calls).1.frame.swap.history
    counts.length = (initial config).swapsIn actions ∧
      counts.sum + (initial config).retracesSince 0 actions = calls.count .retrace ∧
      ∀ k : Fin 8, field history (4 * k) 4 = min 15 (counts.getD k 0) := by
  intro actions counts history
  have hstart : (initial config).frame.swap.Records [] := by
    intro k
    simp [initial, FrameBuffer.initial, SwapState.initial, field]
  have hrecords := records_foldl (initial config) actions (n := 0) rfl hstart
  rw [← frame_run, List.append_nil] at hrecords
  refine ⟨?_, ?_, hrecords⟩
  · rw [List.length_reverse]
    exact length_retraceCounts _ 0 actions
  · rw [List.sum_reverse, sum_retraceCounts, Nat.zero_add]
    exact count_retrace_history _ calls

/-- a swap at once after two retraces, and a synced one that keeps the buffers, carried out two retraces later -/
example :
    let calls : List Call := [.retrace, .endRetrace, .retrace, .writeRegister 0x4A 0, .retrace,
      .writeRegister 0x4A 0x201, .retrace, .retrace]
    ((initial ChipConfig.standard).runCalls calls).1.frame.swap.history = 0x22 := by
  decide +kernel

end Chip
end Accel3D
