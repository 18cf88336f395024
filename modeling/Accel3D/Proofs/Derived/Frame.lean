/-
The fog table and the layout of the frame buffer follow from the registers.

A fog register is stored whenever its two entries of the fog table are set, and never otherwise, so the table is the
one of the registers (`FogTable.ofRegisters`) after every list of actions. The layout is different: before the first
write of a layout register it is not that of the registers. Once a layout register has been stored on the frame buffer
side it is, and stays so, since it is worked out again from all of them with every such write.

Results: `fog_foldl`, `layout_foldl`, `layout_run`.
-/
import Accel3D.Proofs.Swap

namespace Accel3D

/-! ## The fog table -/

namespace FogTable

/-- the register that holds an entry, counted from the first fog register -/
def place (i : Fin 64) : Fin 32 := Fin.ofNat 32 (i.val / 2)

def register (i : Fin 64) : Reg := Fin.ofNat 256 (Reg.fogTable.val + (place i).val)

/-- the byte of a register that an entry is: from bit `low` of its half, the low half for even entries -/
def byteOf (w : UInt32) (low : UInt32) (i : Fin 64) : UInt8 :=
  if i.val % 2 = 0 then (w >>> low).toUInt8 else (w >>> (low + 16)).toUInt8

def ofRegisters (regs : RegisterFile) : FogTable where
  delta := Vector.ofFn fun i => byteOf (regs.get (register i)) 0 i
  blend := Vector.ofFn fun i => byteOf (regs.get (register i)) 8 i

theorem isWorking_register : ∀ i : Fin 64, (register i).isWorking = false := by decide +kernel

theorem place_val (i : Fin 64) : (place i).val = i.val / 2 := by
  have := i.isLt
  exact Nat.mod_eq_of_lt (by omega)

theorem fogRegister_eq_iff (v : Revision) (r : Reg) (i : Fin 64) :
    (Command.ofRegister v r).fogRegister? = some (place i) ↔ r = register i := by
  have hi := i.isLt
  have hp := place_val i
  have hfog : Reg.fogTable.val = 88 := rfl
  have hr : (register i).val = 88 + i.val / 2 := by
    rw [register, Fin.val_ofNat, hfog, hp]
    omega
  rw [Command.fogRegister_ofRegister, Command.place?, Fin.ext_iff, hr, hfog]
  split
  · rename_i hin
    simp only [Bool.and_eq_true, decide_eq_true_eq] at hin
    simp only [Option.map_some, Option.some.injEq, Fin.ext_iff, Fin.val_ofNat, hp]
    omega
  · rename_i hout
    simp only [Bool.and_eq_true, decide_eq_true_eq] at hout
    simp only [Option.map_none, reduceCtorEq, false_iff]
    omega

theorem getElem_setPair (v : Vector UInt8 64) (n : Fin 32) (even odd : UInt8) (i : Fin 64) :
    (setPair v n even odd)[i.val] = if place i = n then (if i.val % 2 = 0 then even else odd) else v[i.val] := by
  have hp : place i = n ↔ i.val / 2 = n.val := by rw [Fin.ext_iff, place_val]
  simp only [setPair, Vector.getElem_set, hp]
  split_ifs <;> first | rfl | omega

/-- what a write of a fog register does to an entry -/
theorem getElem_write (t : FogTable) (n : Fin 32) (data : UInt32) (i : Fin 64) :
    (t.write n data).delta[i.val] = (if place i = n then byteOf data 0 i else t.delta[i.val]) ∧
      (t.write n data).blend[i.val] = if place i = n then byteOf data 8 i else t.blend[i.val] := by
  simp only [write, getElem_setPair, byteOf, UInt32.shiftRight_zero]
  exact ⟨rfl, rfl⟩

theorem ext_entries {t t' : FogTable}
    (h : ∀ i : Fin 64, t.delta[i.val] = t'.delta[i.val] ∧ t.blend[i.val] = t'.blend[i.val]) :
    t = t' := by
  obtain ⟨blend, delta⟩ := t
  obtain ⟨blend', delta'⟩ := t'
  have hb : blend = blend' := Vector.ext fun i hi => (h ⟨i, hi⟩).2
  have hd : delta = delta' := Vector.ext fun i hi => (h ⟨i, hi⟩).1
  rw [hb, hd]

theorem getElem_ofRegisters (regs : RegisterFile) (i : Fin 64) :
    (ofRegisters regs).delta[i.val] = byteOf (regs.get (register i)) 0 i ∧
      (ofRegisters regs).blend[i.val] = byteOf (regs.get (register i)) 8 i :=
  ⟨Vector.getElem_ofFn i.isLt, Vector.getElem_ofFn i.isLt⟩

theorem ofRegisters_congr {regs regs' : RegisterFile} (h : ∀ i, regs.get (register i) = regs'.get (register i)) :
    ofRegisters regs = ofRegisters regs' :=
  ext_entries fun i => by
    obtain ⟨hd, hb⟩ := getElem_ofRegisters regs i
    obtain ⟨hd', hb'⟩ := getElem_ofRegisters regs' i
    rw [hd, hb, hd', hb', h i]
    exact ⟨rfl, rfl⟩

theorem ofRegisters_write {regs regs' : RegisterFile} (n : Fin 32) (data : UInt32)
    (h : ∀ i, regs'.get (register i) = if place i = n then data else regs.get (register i)) :
    (ofRegisters regs).write n data = ofRegisters regs' :=
  ext_entries fun i => by
    obtain ⟨hd, hb⟩ := getElem_ofRegisters regs i
    obtain ⟨hd', hb'⟩ := getElem_ofRegisters regs' i
    obtain ⟨hw, hw'⟩ := getElem_write (ofRegisters regs) n data i
    rw [hw, hw', hd, hb, hd', hb', h i]
    split <;> exact ⟨rfl, rfl⟩

end FogTable

theorem Access.writeThrough_fog (v : Revision) :
    ∀ i : Fin 64, (Access.of v (FogTable.register i)).writeThrough = false := by
  cases v <;> decide +kernel

namespace Chip

/-- only a fog register changes the fog table -/
theorem fog_execute (c : Chip) (w : RegisterWrite) :
    (c.execute w).frame.fog =
      match (c.command w).fogRegister? with
      | some n => c.fogAfter (ChipSelect.ofAddress w.offset) n w.data
      | none => c.frame.fog := by
  have hstored : (c.execute w).frame.fog = (c.stored w).frame.fog := by
    have h := congrArg Display.fog (display_execute c w)
    split at h <;> exact h
  have hrun := congrArg Display.fog (display_run c (c.command w) (ChipSelect.ofAddress w.offset) w.data)
  rw [hstored, frame_stored]
  generalize c.command w = command at hrun ⊢
  cases command with
  | swapBuffer =>
    obtain ⟨l, front, back, -, e⟩ := c.frame.swapCommand_eq w.data c.overlay
    simp only [e] at hrun
    exact hrun
  | _ => exact hrun

def FogFollows (c : Chip) : Prop := c.frame.fog = FogTable.ofRegisters c.regs

theorem fogFollows_execute (c : Chip) (w : RegisterWrite) (h : c.FogFollows) : (c.execute w).FogFollows := by
  have hget : ∀ i, (c.execute w).regs.get (FogTable.register i) =
      if (c.reach w).frame && register w == FogTable.register i then w.data else c.regs.get (FogTable.register i) :=
    fun i => get_execute c w _ (FogTable.isWorking_register i)
  have hiff : ∀ i, (c.command w).fogRegister? = some (FogTable.place i) ↔ register w = FogTable.register i :=
    fun i => FogTable.fogRegister_eq_iff c.revision (register w) i
  unfold FogFollows at h ⊢
  rw [fog_execute]
  cases hn : (c.command w).fogRegister? with
  | none =>
    refine h.trans (FogTable.ofRegisters_congr fun i => ?_)
    have hne : register w ≠ FogTable.register i := fun he => by
      rw [(hiff i).2 he] at hn
      cases hn
    rw [hget, beq_eq_false_iff_ne.2 hne, Bool.and_false]
    rfl
  | some n =>
    have hplace : ∀ i, register w = FogTable.register i ↔ FogTable.place i = n := fun i => by
      rw [← hiff, hn, Option.some.injEq, eq_comm]
    -- the write goes to the chips that it selects
    have hreach : (c.reach w).frame = (ChipSelect.ofAddress w.offset).frame := by
      have hw := (hplace ⟨2 * n.val, by omega⟩).2
        (Fin.ext ((FogTable.place_val _).trans (Nat.mul_div_cancel_left n.val (by decide))))
      rw [reach, hw, Access.writeThrough_fog]
      rfl
    show c.fogAfter (ChipSelect.ofAddress w.offset) n w.data = _
    unfold fogAfter
    cases hs : (ChipSelect.ofAddress w.offset).frame with
    | false =>
      refine h.trans (FogTable.ofRegisters_congr fun i => ?_)
      rw [hget, hreach, hs, Bool.false_and]
      rfl
    | true =>
      rw [if_pos rfl, h]
      refine FogTable.ofRegisters_write n w.data fun i => ?_
      rw [hget, hreach, hs, Bool.true_and]
      simp only [beq_iff_eq, hplace]

theorem fogFollows_act (c : Chip) (a : Action) (h : c.FogFollows) : (c.act a).FogFollows := by
  have hget : ∀ i, (c.act a).regs.get (FogTable.register i) = _ :=
    fun i => get_act c a _ (FogTable.isWorking_register i)
  have hfog := congrArg Display.fog (display_act c a)
  cases a with
  | write w => exact fogFollows_execute c w h
  | retrace =>
    obtain ⟨l, front, back, -, e⟩ := c.frame.retrace_eq c.overlay
    simp only [e] at hfog
    exact hfog.trans h
  | upload i offset data => exact hfog.trans (h.trans (FogTable.ofRegisters_congr fun i => (hget i).symm))
  | linearWrite offset data byteMask => exact hfog.trans (h.trans (FogTable.ofRegisters_congr fun i => (hget i).symm))
  | endRetrace => exact hfog.trans h

theorem fog_foldl (c : Chip) (as : List Action) (h : c.FogFollows) : (as.foldl act c).FogFollows := by
  induction as generalizing c with
  | nil => exact h
  | cons a as ih => exact ih (c.act a) (fogFollows_act c a h)

theorem fogFollows_initial (config : ChipConfig) : (initial config).FogFollows := by
  show FogTable.zero = FogTable.ofRegisters RegisterFile.zero
  decide +kernel

end Chip

/-! ## The layout -/

theorem FrameLayout.ofRegisters_congr (v : Revision) {regs regs' : RegisterFile} (last : UInt32)
    (h : ∀ q, Chip.isLayoutRegister q = true → regs.get q = regs'.get q) :
    ofRegisters v regs last = ofRegisters v regs' last := by
  have hallocation : allocation v regs = allocation v regs' := by
    rw [allocation, allocation, h Reg.fbiInit2 rfl, h Reg.fbiInit5 rfl]
  have hsize : bufferSize regs = bufferSize regs' := by rw [bufferSize, bufferSize, h Reg.fbiInit2 rfl]
  have htiles : tilesPerRow v regs = tilesPerRow v regs' := by
    rw [tilesPerRow, tilesPerRow, h Reg.fbiInit1 rfl, h Reg.fbiInit6 rfl]
  simp only [ofRegisters, hallocation, hsize, htiles, h Reg.fbiInit3 rfl]

theorem isWorking_layout : ∀ q : Reg, Chip.isLayoutRegister q = true → q.isWorking = false := by decide +kernel

namespace Chip

theorem mask_of_shape {c d : Chip} (h : c.shape = d.shape) : c.frame.memory.mask = d.frame.memory.mask := by
  have hl : c.frame.memory.logSize = d.frame.memory.logSize := congrArg Shape.frameLog h
  rw [Memory.mask, Memory.mask, Memory.size, Memory.size, Memory.size_eq, Memory.size_eq, hl]

def LayoutFollows (c : Chip) : Prop :=
  c.frame.layout = FrameLayout.ofRegisters c.revision c.regs c.frame.memory.mask

theorem actStoresLayout_act (c : Chip) (a b : Action) : (c.act a).actStoresLayout b = c.actStoresLayout b := by
  cases b with
  | write w => simp only [actStoresLayout, storesLayout, reach, revision_act]
  | _ => rfl

/-- a layout register stored makes the layout that of the registers, whatever it was -/
theorem layoutFollows_of_stores (c : Chip) (a : Action) (h : c.actStoresLayout a = true) : (c.act a).LayoutFollows := by
  cases a with
  | write w =>
    have hl := congrArg Display.layout (display_execute c w)
    rw [show c.storesLayout w = true from h, if_pos rfl] at hl
    have hmask : (c.execute w).frame.memory.mask = (c.stored w).frame.memory.mask :=
      mask_of_shape ((shape_execute c w).trans (shape_stored c w).symm)
    have hrevision : (c.execute w).revision = c.revision := revision_act c (.write w)
    show (c.execute w).frame.layout =
      FrameLayout.ofRegisters (c.execute w).revision (c.execute w).regs (c.execute w).frame.memory.mask
    rw [regs_execute, hrevision, hmask]
    exact hl
  | upload i offset data => cases h
  | linearWrite offset data byteMask => cases h
  | retrace => cases h
  | endRetrace => cases h

/-- any other action leaves the layout and the layout registers as they are -/
theorem layoutFollows_of_not_stores (c : Chip) (hb : c.revision.hasBansheeLayout = false) (a : Action)
    (hs : c.actStoresLayout a = false) (h : c.LayoutFollows) : (c.act a).LayoutFollows := by
  have hlayout : (c.act a).frame.layout = c.frame.layout := by
    cases displayChange c hb a with
    | swap data command layout display =>
      obtain ⟨l, front, back, hl, e⟩ := c.frame.swapCommand_eq data none
      rw [e, hl rfl] at display
      exact congrArg Display.layout display
    | retrace action display =>
      obtain ⟨l, front, back, hl, e⟩ := c.frame.retrace_eq none
      rw [e, hl rfl] at display
      exact congrArg Display.layout display
    | relayout layout => exact absurd (hs.symm.trans layout) Bool.false_ne_true
    | rest layout command action fog display => exact congrArg Display.layout display
  have hregs : ∀ q, isLayoutRegister q = true → (c.act a).regs.get q = c.regs.get q := fun q hq => by
    rw [get_act c a q (isWorking_layout q hq)]
    cases a with
    | write w =>
      refine if_neg fun hw => ?_
      obtain ⟨hf, he⟩ := Bool.and_eq_true_iff.1 hw
      have hstores : c.storesLayout w = true := by rw [storesLayout, hf, hb, beq_iff_eq.1 he, hq]; rfl
      exact absurd (hs.symm.trans hstores) (by decide)
    | _ => rfl
  show (c.act a).frame.layout = FrameLayout.ofRegisters (c.act a).revision (c.act a).regs _
  rw [hlayout, h, revision_act, mask_of_shape (shape_act c a)]
  exact FrameLayout.ofRegisters_congr _ _ fun q hq => (hregs q hq).symm

/-- after any actions of which one stores a layout register, the layout is that of the registers -/
theorem layout_foldl (c : Chip) (hb : c.revision.hasBansheeLayout = false) (as : List Action)
    (h : c.LayoutFollows ∨ as.any c.actStoresLayout = true) : (as.foldl act c).LayoutFollows := by
  induction as generalizing c with
  | nil =>
    obtain h | h := h
    · exact h
    · cases h
  | cons a as ih =>
    refine ih (c.act a) (notBanshee_act hb a) ?_
    rw [List.any_cons, Bool.or_eq_true] at h
    have hrest : as.any (c.act a).actStoresLayout = as.any c.actStoresLayout :=
      congrArg as.any (funext (actStoresLayout_act c a))
    cases hs : c.actStoresLayout a with
    | true => exact .inl (layoutFollows_of_stores c a hs)
    | false =>
      obtain h | h | h := h
      · exact .inl (layoutFollows_of_not_stores c hb a hs h)
      · exact absurd (hs.symm.trans h) Bool.false_ne_true
      · exact .inr (hrest.trans h)

/-- after a run that stores a layout register, the layout is that of the registers -/
theorem layout_run (c : Chip) (hb : c.revision.hasBansheeLayout = false) (calls : List Call)
    (h : (c.history calls).any c.actStoresLayout = true) : (c.runCalls calls).1.LayoutFollows := by
  obtain ⟨q, hq⟩ := run_eq_foldl c calls
  rw [hq]
  exact layout_foldl c hb (c.history calls) (.inr h)

end Chip
end Accel3D
