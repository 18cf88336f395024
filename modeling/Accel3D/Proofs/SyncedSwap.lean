/-
The retrace at which a synced swap is carried out.

The chip counts the retraces since the last swap, and a synced swap is due at the first retrace after its command at
which its interval has passed. The count belongs to the history of swaps and stops at 250, while an interval is any
number of eight bits: so a swap with an interval up to 250 is carried out at the retrace it asks for, and one with a
longer interval waits for ever, however many retraces come.

Results: `display_of_carriesOut` (a swap carried out moves the buffers on and ends the wait), `seen_foldl` (what the
count of retraces shows after any actions), `swapsIn_waiting` (what becomes of a swap that waits), `synced_swap` (when
the swap of a command has been carried out), `synced_swap_waits` (a swap that is never carried out).
-/
import Accel3D.Proofs.DisplayStep

namespace Accel3D

/-! ## The count of retraces -/

namespace SwapState

def Seen (s : SwapState) (n : Nat) : Prop := s.retraces.toNat = min 250 n

theorem Seen.retrace {s : SwapState} {n : Nat} (h : s.Seen n) : s.retrace.Seen (n + 1) := by
  unfold Seen at h ⊢
  have h250 : (250 : UInt32).toNat = 250 := rfl
  show (if s.retraces < 250 then s.retraces + 1 else s.retraces).toNat = _
  split <;> rename_i hlt <;> rw [UInt32.lt_iff_toNat_lt] at hlt
  · rw [UInt32.toNat_add, UInt32.toNat_one]
    omega
  · omega

/-- a synced swap with interval `k` waits, `n` retraces after the last swap -/
structure Waits (s : SwapState) (k n : Nat) : Prop where
  sync : s.syncPending = true
  interval : s.interval.toNat = k
  seen : s.Seen n

theorem Seen.waits {s : SwapState} {n : Nat} (h : s.Seen n) {data : UInt32} (hsync : bit data 0 = true) :
    (s.commanded data).Waits (field data 1 8) n := by
  rw [commanded, if_pos hsync]
  refine ⟨rfl, ?_, h⟩
  have hlt := field_lt data 1 8
  exact UInt32.toNat_ofNat_of_lt' (Nat.lt_trans hlt (by decide))

/-- a swap that waits is due at the next retrace if its interval has passed by then and the count can show it -/
theorem Waits.isDue {s : SwapState} {k n : Nat} (h : s.Waits k n) :
    s.retrace.isDue = decide (k ≤ min 250 (n + 1)) := by
  have hseen : s.retrace.retraces.toNat = min 250 (n + 1) := h.seen.retrace
  show (s.syncPending && decide (s.interval ≤ s.retrace.retraces)) = _
  rw [h.sync, Bool.true_and, decide_eq_decide, UInt32.le_iff_toNat_le, hseen, h.interval]

end SwapState

theorem Command.ofRegister_swapBuffer (v : Revision) :
    ∀ r : Reg, ofRegister v r = .swapBuffer ↔ r = Reg.swapbufferCmd := by
  cases v <;> decide +kernel

namespace Chip

/-! ## Swaps carried out -/

/-- whether an action carries a swap out: a command that is not synced, or a retrace at which a synced one is due -/
def carriesOut (c : Chip) (a : Action) : Bool :=
  match c.swapCommand? a with
  | some data => !bit data 0
  | none => decide (a = .retrace) && c.frame.swap.retrace.isDue

theorem carriesOut_of_command {c : Chip} {a : Action} {data : UInt32} (h : c.swapCommand? a = some data) :
    c.carriesOut a = !bit data 0 := by rw [carriesOut, h]

theorem carriesOut_of_rest {c : Chip} {a : Action} (h : c.swapCommand? a = none) :
    c.carriesOut a = (decide (a = .retrace) && c.frame.swap.retrace.isDue) := by rw [carriesOut, h]

def swapsIn (c : Chip) : List Action → Nat
  | [] => 0
  | a :: as => (c.carriesOut a).toNat + (c.act a).swapsIn as

/-- the retraces since the last swap after a list of actions, `n` retraces after the last swap before it -/
def retracesSince (c : Chip) (n : Nat) : List Action → Nat
  | [] => n
  | a :: as => (c.act a).retracesSince (if c.carriesOut a then 0 else if a = .retrace then n + 1 else n) as

/-- a swap carried out moves the buffers on, and none waits after it -/
theorem display_of_carriesOut {c : Chip} {a : Action} (h : c.carriesOut a = true) :
    ∃ s, (c.act a).frame.display = (({ c.frame with swap := s } : FrameBuffer).swapNow c.overlay).display := by
  unfold carriesOut at h
  cases displayStep c a with
  | swap data command display =>
    rw [command] at h
    have hnow : bit data 0 = false := by simpa using h
    rw [FrameBuffer.swapCommand, hnow] at display
    exact ⟨_, display⟩
  | retrace action display =>
    subst action
    have hdue : c.frame.swap.retrace.isDue = true := by simpa [swapCommand?] using h
    refine ⟨c.frame.swap.retrace, ?_⟩
    rw [display, FrameBuffer.retrace]
    simp only [hdue, if_true]
    simp only [FrameBuffer.swapNow, FrameBuffer.rotate]
    split
    · rfl
    · split_ifs <;> rfl
  | announce command action => rw [command] at h; simp [action] at h
  | buffer banshee command action => rw [command] at h; simp [action] at h
  | relayout banshee command action => rw [command] at h; simp [action] at h
  | rest command action => rw [command] at h; simp [action] at h

theorem swapCommand?_act (c : Chip) (a b : Action) : (c.act a).swapCommand? b = c.swapCommand? b := by
  unfold swapCommand? command
  rw [revision_act]

theorem seen_act (c : Chip) (a : Action) {n : Nat} (h : c.frame.swap.Seen n) :
    (c.act a).frame.swap.Seen (if c.carriesOut a then 0 else if a = .retrace then n + 1 else n) := by
  obtain ⟨pending, hswap⟩ := swap_act_eq c a
  rw [hswap]
  show (c.swapAfter a).Seen _
  cases hcommand : c.swapCommand? a with
  | some data =>
    have hne : a ≠ .retrace := by
      rintro rfl
      cases hcommand
    rw [swapAfter_of_command hcommand, carriesOut_of_command hcommand, if_neg hne, SwapState.commanded]
    cases bit data 0 with
    | true => exact h
    | false => exact rfl
  | none =>
    rw [carriesOut_of_rest hcommand]
    by_cases ha : a = .retrace
    · subst ha
      show c.frame.swap.atRetrace.Seen (if c.frame.swap.retrace.isDue then 0 else n + 1)
      unfold SwapState.atRetrace
      split
      · exact rfl
      · exact h.retrace
    · rw [swapAfter_of_rest hcommand ha, if_neg ha, decide_eq_false ha]
      exact h

/-- **What the count of retraces shows.** After any actions it is the number of retraces since the last swap, up to
250. -/
theorem seen_foldl (c : Chip) (as : List Action) {n : Nat} (h : c.frame.swap.Seen n) :
    (as.foldl act c).frame.swap.Seen (c.retracesSince n as) := by
  induction as generalizing c n with
  | nil => exact h
  | cons a as ih => exact ih (c.act a) (seen_act c a h)

/-! ## A swap that waits -/

/-- an action that is no swap command and at which no swap is due leaves the swap that waits as it is -/
theorem swap_act_of_not_carriesOut {c : Chip} {a : Action} (hcommand : c.swapCommand? a = none)
    (h : c.carriesOut a = false) :
    (c.act a).frame.swap.syncPending = c.frame.swap.syncPending ∧
      (c.act a).frame.swap.interval = c.frame.swap.interval := by
  obtain ⟨pending, hswap⟩ := swap_act_eq c a
  rw [hswap]
  show (c.swapAfter a).syncPending = _ ∧ (c.swapAfter a).interval = _
  rw [carriesOut_of_rest hcommand] at h
  by_cases ha : a = .retrace
  · subst ha
    have hdue : c.frame.swap.retrace.isDue = false := h
    have hafter : c.swapAfter .retrace = c.frame.swap.atRetrace := rfl
    rw [hafter, SwapState.atRetrace, hdue]
    exact ⟨rfl, rfl⟩
  · rw [swapAfter_of_rest hcommand ha]
    exact ⟨rfl, rfl⟩

/-- without a swap command nothing is carried out while no swap waits -/
theorem swapsIn_idle (c : Chip) (as : List Action) (hcommand : ∀ a ∈ as, c.swapCommand? a = none)
    (h : c.frame.swap.syncPending = false) :
    c.swapsIn as = 0 ∧ (as.foldl act c).frame.swap.syncPending = false := by
  induction as generalizing c with
  | nil => exact ⟨rfl, h⟩
  | cons a as ih =>
    have ha : c.swapCommand? a = none := hcommand a List.mem_cons_self
    have hdue : c.frame.swap.retrace.isDue = false := by
      show (c.frame.swap.syncPending && _) = false
      rw [h, Bool.false_and]
    have hnot : c.carriesOut a = false := by rw [carriesOut_of_rest ha, hdue, Bool.and_false]
    have hrest : ∀ b ∈ as, (c.act a).swapCommand? b = none := fun b hb => by
      rw [swapCommand?_act]
      exact hcommand b (List.mem_cons_of_mem _ hb)
    obtain ⟨hnone, hpending⟩ := ih (c.act a) hrest ((swap_act_of_not_carriesOut ha hnot).1.trans h)
    rw [swapsIn, hnot, hnone]
    exact ⟨rfl, hpending⟩

/-- whether a swap with interval `k` is carried out by the `m` retraces that follow, `n` retraces after the last swap -/
def Elapses (k n m : Nat) : Prop := 1 ≤ m ∧ k ≤ n + m ∧ k ≤ 250

instance (k n m : Nat) : Decidable (Elapses k n m) := inferInstanceAs (Decidable (_ ∧ _))

/-- **What becomes of a swap that waits.** Actions with no swap command among them carry it out, once, if its interval
passes with them; otherwise they carry nothing out and it still waits. -/
theorem swapsIn_waiting (c : Chip) (as : List Action) {k n : Nat} (hcommand : ∀ a ∈ as, c.swapCommand? a = none)
    (h : c.frame.swap.Waits k n) :
    c.swapsIn as = (decide (Elapses k n (as.count .retrace))).toNat ∧
      (as.foldl act c).frame.swap.syncPending = !decide (Elapses k n (as.count .retrace)) := by
  induction as generalizing c n with
  | nil =>
    have hno : ¬ Elapses k n 0 := fun he => absurd he.1 (by decide)
    rw [List.count_nil, decide_eq_false hno]
    exact ⟨rfl, h.sync⟩
  | cons a as ih =>
    have ha : c.swapCommand? a = none := hcommand a List.mem_cons_self
    have hrest : ∀ b ∈ as, (c.act a).swapCommand? b = none := fun b hb => by
      rw [swapCommand?_act]
      exact hcommand b (List.mem_cons_of_mem _ hb)
    have hcarries : c.carriesOut a = (decide (a = .retrace) && decide (k ≤ min 250 (n + 1))) := by
      rw [carriesOut_of_rest ha, h.isDue]
    cases hout : c.carriesOut a with
    | true =>
      -- the retrace that carries it out: nothing waits after it
      rw [hcarries, Bool.and_eq_true, decide_eq_true_iff, decide_eq_true_iff] at hout
      obtain ⟨rfl, hdue⟩ := hout
      have hyes : Elapses k n (as.count .retrace + 1) := by
        refine ⟨?_, ?_, ?_⟩ <;> omega
      have hdone : (c.act .retrace).frame.swap.syncPending = false := by
        obtain ⟨pending, hswap⟩ := swap_act_eq c .retrace
        rw [hswap]
        show c.frame.swap.atRetrace.syncPending = false
        rw [SwapState.atRetrace, h.isDue, decide_eq_true hdue]
        rfl
      obtain ⟨hnone, hpending⟩ := swapsIn_idle _ as hrest hdone
      rw [swapsIn, hcarries, hnone, List.count_cons_self, decide_eq_true hyes, decide_eq_true hdue]
      exact ⟨rfl, hpending⟩
    | false =>
      obtain ⟨hsync, hinterval⟩ := swap_act_of_not_carriesOut ha hout
      have hseen := seen_act c a h.seen
      rw [hout, if_neg Bool.false_ne_true] at hseen
      have hwaits : (c.act a).frame.swap.Waits k (if a = .retrace then n + 1 else n) :=
        ⟨hsync.trans h.sync, (congrArg UInt32.toNat hinterval).trans h.interval, hseen⟩
      obtain ⟨hswaps, hpending⟩ := ih (c.act a) hrest hwaits
      have hiff : Elapses k (if a = .retrace then n + 1 else n) (as.count .retrace) ↔
          Elapses k n ((a :: as).count .retrace) := by
        rw [hcarries, Bool.and_eq_false_iff, decide_eq_false_iff_not, decide_eq_false_iff_not] at hout
        by_cases hretrace : a = .retrace
        · subst hretrace
          rw [if_pos rfl, List.count_cons_self, Elapses, Elapses]
          have hlate : ¬ k ≤ min 250 (n + 1) := hout.resolve_left fun hne => hne rfl
          omega
        · rw [if_neg hretrace, List.count_cons_of_ne hretrace]
      rw [swapsIn, hout, hswaps, decide_eq_decide.2 hiff]
      exact ⟨Nat.zero_add _, hpending.trans (by rw [decide_eq_decide.2 hiff])⟩

/-! ## Runs -/

theorem count_retrace_history (c : Chip) (calls : List Call) :
    (c.history calls).count .retrace = calls.count .retrace := by
  have hwaiting : ∀ d : Chip, d.waiting.count .retrace = 0 := fun d => by
    rw [List.count_eq_zero, waiting]
    simp
  have hactions : ∀ (d : Chip) (call : Call), (d.actions call).count .retrace = [call].count .retrace := by
    intro d call
    cases call with
    | writeRegister offset data =>
      simp only [actions]
      split_ifs <;> simp [hwaiting]
    | readRegister offset =>
      simp only [actions]
      split_ifs <;> simp [hwaiting]
    | _ => simp [actions, hwaiting]
  induction calls generalizing c with
  | nil => rfl
  | cons call calls ih =>
    rw [history, List.count_append, hactions, ih, ← List.count_append]
    rfl

theorem write_of_mem_actions (c : Chip) (call : Call) {w : RegisterWrite} (h : .write w ∈ c.actions call) :
    w ∈ c.queue.writes ∨ call = .writeRegister w.offset w.data := by
  have hwaiting : .write w ∈ c.waiting → w ∈ c.queue.writes := fun hw => by
    obtain ⟨v, hv, he⟩ := List.mem_map.1 hw
    rwa [← Action.write.inj he]
  cases call with
  | writeRegister offset data =>
    simp only [actions] at h
    split_ifs at h
    · cases h
    · exact .inl (hwaiting h)
    · cases h
    · obtain hw | hw := List.mem_append.1 h
      · exact .inl (hwaiting hw)
      · obtain rfl := Action.write.inj (List.mem_singleton.1 hw)
        exact .inr rfl
  | readRegister offset =>
    simp only [actions] at h
    split_ifs at h
    · exact .inl (hwaiting h)
    · cases h
  | endRetrace => simp [actions] at h
  | readLinear offset => exact .inl (hwaiting h)
  | flush => exact .inl (hwaiting h)
  | _ => exact .inl (hwaiting (by simpa [actions] using h))

theorem write_of_mem_queue_step (c : Chip) (call : Call) {w : RegisterWrite} (h : w ∈ (c.step call).1.queue.writes) :
    w ∈ c.queue.writes ∨ call = .writeRegister w.offset w.data := by
  have hflush : ∀ {d : Chip}, d.queue = c.flush.queue → ¬ w ∈ d.queue.writes := fun hd hw => by
    rw [hd, queue_flush] at hw
    cases hw
  cases call with
  | writeRegister offset data =>
    simp only [step, writeRegister] at h
    split_ifs at h
    · exact .inl h
    · obtain hw | hw := List.mem_append.1 (show w ∈ _ ++ [⟨offset, data⟩] from h)
      · split at hw
        · exact absurd hw (hflush rfl)
        · exact .inl hw
      · obtain rfl := List.mem_singleton.1 hw
        exact .inr rfl
    · exact absurd h (hflush (queue_execute _ _))
  | readRegister offset =>
    simp only [step, readRegister] at h
    split_ifs at h
    · exact absurd h (hflush rfl)
    · exact .inl h
  | writeLinear offset data byteMask => exact absurd h (hflush (queue_linearWrite _ _ _ _))
  | endRetrace => exact .inl h
  | _ => exact absurd h (hflush rfl)

theorem write_of_mem_history (c : Chip) (calls : List Call) {w : RegisterWrite} (h : .write w ∈ c.history calls) :
    w ∈ c.queue.writes ∨ .writeRegister w.offset w.data ∈ calls := by
  induction calls generalizing c with
  | nil => cases h
  | cons call calls ih =>
    have hcall : call = .writeRegister w.offset w.data → .writeRegister w.offset w.data ∈ call :: calls :=
      fun e => e ▸ List.mem_cons_self
    obtain hnow | hlater := List.mem_append.1 h
    · exact (write_of_mem_actions c call hnow).imp_right hcall
    · obtain hwaits | hmade := ih _ hlater
      · exact (write_of_mem_queue_step c call hwaits).imp_right hcall
      · exact .inr (List.mem_cons_of_mem _ hmade)

/-- a run from an empty queue carries out no swap command if it makes none -/
theorem swapCommand?_history (c : Chip) (hqueue : c.queue = .empty) (calls : List Call)
    (h : ∀ offset data, .writeRegister offset data ∈ calls → Reg.ofAddress offset ≠ Reg.swapbufferCmd) :
    ∀ a ∈ c.history calls, c.swapCommand? a = none := by
  intro a ha
  cases a with
  | write w =>
    obtain hwaits | hmade := write_of_mem_history c calls ha
    · rw [hqueue] at hwaits
      cases hwaits
    · exact if_neg fun hcommand => h _ _ hmade ((Command.ofRegister_swapBuffer _ _).1 hcommand)
  | _ => rfl

/-- **When the swap of a command has been carried out.** A run has left the chip `since` retraces after its last swap,
or after its start; then a swap command with bit 0 set and interval `n` is carried out, and then come calls with `m`
retraces and no swap command among them. The swap is carried out by these, once, exactly when there is a retrace, the
interval has passed, and it is at most 250; until then it still waits. -/
theorem synced_swap (config : ChipConfig) (calls more : List Call) (offset data : UInt32)
    (hregister : Reg.ofAddress offset = Reg.swapbufferCmd) (hsync : bit data 0 = true)
    (hmore : ∀ offset data, .writeRegister offset data ∈ more → Reg.ofAddress offset ≠ Reg.swapbufferCmd) :
    let since := (initial config).retracesSince 0 ((initial config).history (calls ++ [.flush]))
    let c := ((initial config).runCalls (calls ++ [.writeRegister offset data, .flush])).1
    let n := field data 1 8
    let m := more.count .retrace
    c.swapsIn (c.history more) = (if 1 ≤ m ∧ n ≤ since + m ∧ n ≤ 250 then 1 else 0) ∧
      ((c.runCalls more).1.frame.swap.syncPending = true ↔ ¬ (1 ≤ m ∧ n ≤ since + m ∧ n ≤ 250)) := by
  intro since c n m
  -- the chip before the command, with nothing waiting in its queue
  obtain ⟨b, hb⟩ : ∃ b, b = ((initial config).runCalls (calls ++ [.flush])).1 := ⟨_, rfl⟩
  have hwritten : c = b.act (.write ⟨offset, data⟩) := by
    have hrun : c = (((initial config).runCalls calls).1.writeRegister offset data).flush := by
      show ((initial config).runCalls (calls ++ [.writeRegister offset data, .flush])).1 = _
      rw [runCalls_append]
      rfl
    have hwrite : (Access.of ((initial config).runCalls calls).1.revision (Reg.ofAddress offset)).write = true := by
      rw [hregister]
      cases ((initial config).runCalls calls).1.revision <;> decide +kernel
    rw [hrun, flush_writeRegister _ _ _ hwrite, hb, runCalls_append]
    rfl
  have hseen : b.frame.swap.Seen since := by
    rw [hb, frame_run]
    exact seen_foldl (initial config) _ rfl
  have hcommand : b.swapCommand? (.write ⟨offset, data⟩) = some data :=
    if_pos ((Command.ofRegister_swapBuffer _ _).2 hregister)
  have hwaits : c.frame.swap.Waits n since := by
    obtain ⟨pending, hswap⟩ := swap_act_eq b (.write ⟨offset, data⟩)
    rw [hwritten, hswap, swapAfter_of_command hcommand]
    have h := hseen.waits hsync
    exact ⟨h.sync, h.interval, h.seen⟩
  have hqueue : c.queue = .empty := by
    show ((initial config).runCalls (calls ++ [.writeRegister offset data, .flush])).1.queue = _
    rw [runCalls_append]
    exact queue_flush _
  obtain ⟨hswaps, hpending⟩ := swapsIn_waiting c (c.history more) (swapCommand?_history c hqueue more hmore) hwaits
  rw [count_retrace_history] at hswaps hpending
  rw [hswaps, frame_run, hpending, Bool.not_eq_true', decide_eq_false_iff_not]
  refine ⟨?_, Iff.rfl⟩
  show (decide (1 ≤ m ∧ n ≤ since + m ∧ n ≤ 250)).toNat = _
  split <;> rename_i helapses <;> simp only [helapses] <;> rfl

/-- two retraces, then a swap with interval 3: the retrace after it is the third since the start -/
theorem synced_swap_third :
    let c := ((initial ChipConfig.standard).runCalls
      ([.retrace, .endRetrace, .retrace] ++ [.writeRegister 0x4A 0x7, .flush])).1
    c.swapsIn (c.history [.endRetrace, .retrace]) = 1 ∧
      (c.runCalls [.endRetrace, .retrace]).1.frame.swap.syncPending = false := by
  intro c
  have h := synced_swap ChipConfig.standard [.retrace, .endRetrace, .retrace] [.endRetrace, .retrace] 0x4A 0x7
    (by decide) (by decide) (by simp)
  have hsince : (initial ChipConfig.standard).retracesSince 0
      ((initial ChipConfig.standard).history ([.retrace, .endRetrace, .retrace] ++ [.flush])) = 2 := by decide +kernel
  simp only [hsince] at h
  obtain ⟨hswaps, hpending⟩ := h
  exact ⟨hswaps.trans (by decide), eq_false_of_ne_true (mt hpending.1 (by decide))⟩

/-- a swap with interval 255 still waits when 255 retraces have come -/
theorem synced_swap_waits :
    let calls : List Call := .writeRegister 0x4A 0x1FF :: List.replicate 255 .retrace
    field 0x1FF 1 8 ≤ calls.count .retrace ∧
      ((initial ChipConfig.standard).runCalls calls).1.frame.swap.syncPending = true := by
  decide +kernel

end Chip
end Accel3D
