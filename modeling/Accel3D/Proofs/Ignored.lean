/-
Calls that the chip ignores.

Some calls find nothing to do: a write of a register without the write right, a linear write of a reserved format or
to no color buffer, an upload to a unit that is not there or to a level above 8, a triangle command without a color
buffer to draw to, a vertex that completes no triangle or one that is dropped (`Ignores`). Each is turned away at
another depth, and on the way the chip has done no more than store the word of a command register, take a vertex into
the setup unit or bring the derived state of one texture unit up to date (`Untouched`).

A triangle command is the exception. It moves the start values to the centre of vertex A's pixel, if fbzColorPath asks
for it, before it looks for a color buffer; without one they stay moved, and nothing else changes (`prepared`).

Results: `TextureUnit.Untouched.holds` (what a unit still holds), `ignored_untouched`.
-/
import Accel3D.Proofs.LinearBounds
import Accel3D.Proofs.UnitMake

namespace Accel3D

/-! ## Registers -/

namespace Reg

def isTriangleCmd (r : Reg) : Bool := r = triangleCmd ∨ r = floatTriangleCmd

/-- a register that is stored and that nothing is derived from -/
def isRaw (r : Reg) : Bool :=
  !TextureUnit.isTextureRegister r && (TextureUnit.nccRegister? r).isNone && !Chip.isLayoutRegister r

theorem isRaw_of_isTriangleCmd : ∀ r : Reg, r.isTriangleCmd = true → r.isRaw = true := by decide +kernel

theorem isRaw_drawTriCmd : drawTriCmd.isRaw = true := by decide +kernel

theorem isTriangleCmd_drawTriCmd : drawTriCmd.isTriangleCmd = false := by decide +kernel

variable {r : Reg} (revision : Revision) (h : r.isTriangleCmd = true)
include h

theorem ofRegister_of_isTriangleCmd : Command.ofRegister revision r = .triangle := by
  obtain rfl | rfl := of_decide_eq_true h <;> cases revision <;> decide +kernel

theorem write_of_isTriangleCmd : (Access.of revision r).write = true := by
  obtain rfl | rfl := of_decide_eq_true h <;> cases revision <;> decide +kernel

end Reg

theorem Command.ofRegister_drawTriCmd (revision : Revision) : ofRegister revision Reg.drawTriCmd = .extendStrip := by
  cases revision <;> decide +kernel

theorem RegisterFile.get_set_of_ne (f : RegisterFile) {r q : Reg} (h : some r ≠ some q) (v : UInt32) :
    (f.set r v).get q = f.get q := by
  have hne : r ≠ q := fun e => h (congrArg some e)
  rw [get_set, if_neg hne]

/-! ## Texture units -/

theorem NccTable.registers_refresh (t : NccTable) : t.refresh.registers = t.registers := by
  unfold refresh
  split <;> rfl

namespace TextureUnit

/-- a unit that is what it was, up to the word of one register that it stores, or brought up to date besides -/
structure Untouched (u v : TextureUnit) (stored : Option Reg) : Prop where
  rest : v = { u with regs := v.regs } ∨ v = { u.refresh with regs := v.regs }
  regs : ∀ r, stored ≠ some r → v.regs.get r = u.regs.get r

/-- **What an untouched unit still holds**: its memory, coordinate parameters, palettes and table registers. -/
theorem Untouched.holds {u v : TextureUnit} {stored : Option Reg} (h : u.Untouched v stored) :
    v.memory = u.memory ∧ v.gradients = u.gradients ∧ v.palette = u.palette ∧ v.alphaPalette = u.alphaPalette ∧
      v.ncc0.registers = u.ncc0.registers ∧ v.ncc1.registers = u.ncc1.registers := by
  have hrefresh : u.refresh.gradients = u.gradients ∧ u.refresh.palette = u.palette ∧
      u.refresh.alphaPalette = u.alphaPalette ∧ u.refresh.ncc0.registers = u.ncc0.registers ∧
      u.refresh.ncc1.registers = u.ncc1.registers := by
    unfold refresh
    split
    · exact ⟨rfl, rfl, rfl, u.ncc0.registers_refresh, u.ncc1.registers_refresh⟩
    · exact ⟨rfl, rfl, rfl, rfl, rfl⟩
  obtain hv | hv := h.rest
  · rw [hv]
    exact ⟨rfl, rfl, rfl, rfl, rfl, rfl⟩
  · rw [hv]
    exact ⟨u.memory_refresh, hrefresh⟩

theorem Untouched.refl (u : TextureUnit) (stored : Option Reg) : u.Untouched u stored := ⟨.inl rfl, fun _ _ => rfl⟩

theorem untouched_writeRegister (u : TextureUnit) {r : Reg} (hr : r.isRaw = true) (data : UInt32) :
    u.Untouched (u.writeRegister r data) (some r) := by
  simp only [Reg.isRaw, Bool.and_eq_true, Bool.not_eq_true', Option.isNone_iff_eq_none] at hr
  have hstore : u.writeRegister r data = u.store r data := by simp [writeRegister, hr.1.1, hr.1.2]
  rw [hstore]
  exact ⟨.inl rfl, fun q hq => u.regs.get_set_of_ne hq data⟩

/-- an upload to a level above 8 brings the unit up to date and writes nothing -/
theorem untouched_upload (u : TextureUnit) (hlinear : u.linearUpload = false) {offset : UInt32}
    (hlevel : 8 < field offset 15 4) (data : UInt32) : u.Untouched (u.upload offset data) none := by
  have haddress : u.refresh.uploadAddress offset = none := by
    simp [uploadAddress, u.linearUpload_refresh, hlinear, Nat.not_lt.2 hlevel]
  have hupload : u.upload offset data = u.refresh := by simp [upload, haddress]
  rw [hupload]
  exact ⟨.inr rfl, fun r _ => by rw [u.regs_refresh]⟩

end TextureUnit

/-! ## Chips -/

/-- on Voodoo 1 and 2 only the front and the back buffer are drawn to -/
theorem FrameBuffer.drawOffset_eq_none (f : FrameBuffer) {revision : Revision} {select : Option Buffer}
    (hrevision : revision.hasBansheeLayout = false) (hfront : select ≠ some .front) (hback : select ≠ some .back) :
    f.drawOffset revision select = none := by
  unfold drawOffset
  rw [hrevision, if_neg Bool.false_ne_true]
  split
  · exact absurd rfl hfront
  · exact absurd rfl hback
  · rfl

def Call.isTriangle : Call → Bool
  | .writeRegister offset _ => (Reg.ofAddress offset).isTriangleCmd
  | _ => false

namespace Chip

/-- the same frame buffer side and untouched units; only a vertex command may change the setup unit -/
structure Untouched (c d : Chip) (stored : Option Reg) : Prop where
  config : d.config = c.config
  frame : d.frame = c.frame
  queue : d.queue = c.queue
  modes : d.modes = c.modes
  setup : stored ≠ some Reg.drawTriCmd → d.setup = c.setup
  regs : ∀ r, stored ≠ some r → d.regs.get r = c.regs.get r
  size : d.textures.size = c.textures.size
  units : ∀ i (h : i < c.textures.size) (h' : i < d.textures.size), c.textures[i].Untouched d.textures[i] stored

/-- calls that the chip ignores -/
inductive Ignores (c : Chip) : Call → Prop
  | unwritable (offset data : UInt32) (hwrite : (Access.of c.revision (Reg.ofAddress offset)).write = false) :
      c.Ignores (.writeRegister offset data)
  | reservedFormat (offset data byteMask : UInt32) (hformat : LinearFormat.ofCode? c.linearMode.writeFormat = none) :
      c.Ignores (.writeLinear offset data byteMask)
  | noWriteBuffer (offset data byteMask : UInt32) (hrevision : c.revision.hasBansheeLayout = false)
      (hfront : c.linearMode.writeBuffer ≠ some .front) (hback : c.linearMode.writeBuffer ≠ some .back) :
      c.Ignores (.writeLinear offset data byteMask)
  | absentUnit (offset data : UInt32) (hunit : c.textures.size ≤ field offset 19 2) :
      c.Ignores (.writeTexture offset data)
  | levelAbove (offset data : UInt32) (hrevision : c.revision.hasBansheeLayout = false)
      (hlevel : 8 < field offset 15 4) : c.Ignores (.writeTexture offset data)
  | noDrawBuffer (offset data : UInt32) (hcommand : (Reg.ofAddress offset).isTriangleCmd = true)
      (hrevision : c.revision.hasBansheeLayout = false) (hfront : c.frameMode.drawBuffer ≠ some .front)
      (hback : c.frameMode.drawBuffer ≠ some .back) : c.Ignores (.writeRegister offset data)
  | incomplete (offset data : UInt32) (hcommand : Reg.ofAddress offset = Reg.drawTriCmd)
      (hcount : c.withVertex.setup.isComplete = false) : c.Ignores (.writeRegister offset data)
  | culled (offset data : UInt32) (hcommand : Reg.ofAddress offset = Reg.drawTriCmd)
      (hculled : c.withVertex.setup.isCulled c.setupMode = true) : c.Ignores (.writeRegister offset data)

/-- the register that a call stores a word in -/
def storedRegister? (c : Chip) : Call → Option Reg
  | .writeRegister offset _ =>
    if (Access.of c.revision (Reg.ofAddress offset)).write then some (Reg.ofAddress offset) else none
  | _ => none

/-- the chip when an ignored call is turned away: a triangle command that was asked to has moved the start values -/
def prepared (c : Chip) (call : Call) : Chip :=
  if call.isTriangle && (ColorPath.decode (c.regs.get Reg.fbzColorPath)).subpixelAdjust then c.recentre c.textureCount
  else c

theorem Untouched.refl (c : Chip) (stored : Option Reg) : c.Untouched c stored where
  config := rfl
  frame := rfl
  queue := rfl
  modes := rfl
  setup _ := rfl
  regs _ _ := rfl
  size := rfl
  units _ _ _ := .refl _ _

variable (c : Chip)

theorem untouched_mapTextures {stored : Option Reg} (regs : RegisterFile) (f : Nat → TextureUnit → TextureUnit)
    (hregs : ∀ r, stored ≠ some r → regs.get r = c.regs.get r)
    (hf : ∀ i (h : i < c.textures.size), c.textures[i].Untouched (f i c.textures[i]) stored) :
    c.Untouched (Chip.mapTextures { c with regs := regs } f) stored where
  config := rfl
  frame := rfl
  queue := rfl
  modes := rfl
  setup _ := rfl
  regs := hregs
  size := Array.size_mapIdx
  units i h h' := by
    simp only [mapTextures, withTextures, Array.getElem_mapIdx]
    exact hf i h

/-! ## Register writes -/

theorem untouched_storeRegister (select : ChipSelect) {r : Reg} (hr : r.isRaw = true) (data : UInt32) :
    c.Untouched (c.storeRegister select r data) (some r) := by
  have hunits : ∀ i (h : i < c.textures.size), c.textures[i].Untouched
      (if select.texture i then c.textures[i].writeRegister r data else c.textures[i]) (some r) := fun i h => by
    split
    · exact c.textures[i].untouched_writeRegister hr data
    · exact .refl _ _
  have hstore : c.storeRegister select r data =
      Chip.mapTextures { c with regs := if select.frame then c.regs.set r data else c.regs } fun i u =>
        if select.texture i then u.writeRegister r data else u := by
    unfold storeRegister
    split <;> rfl
  rw [hstore]
  refine c.untouched_mapTextures _ _ (fun q hq => ?_) hunits
  split
  · exact c.regs.get_set_of_ne hq data
  · rfl

theorem untouched_execute (w : RegisterWrite) (hr : (register w).isRaw = true) :
    (c.run (c.command w) (ChipSelect.ofAddress w.offset) w.data).Untouched (c.execute w) (some (register w)) := by
  have hlayout : isLayoutRegister (register w) = false := by
    simp only [Reg.isRaw, Bool.and_eq_true, Bool.not_eq_true'] at hr
    exact hr.2
  rw [execute_eq, updateLayout, hlayout, Bool.and_false, if_neg Bool.false_ne_true, stored]
  exact untouched_storeRegister _ _ hr _

theorem triangleBase_atCentre : c.atCentre.triangleBase = c.triangleBase := by
  unfold atCentre
  split <;> rfl

/-- a triangle command without a color buffer -/
theorem untouched_triangle {offset data : UInt32} (hcommand : (Reg.ofAddress offset).isTriangleCmd = true)
    (hrevision : c.revision.hasBansheeLayout = false) (hfront : c.frameMode.drawBuffer ≠ some .front)
    (hback : c.frameMode.drawBuffer ≠ some .back) :
    c.atCentre.Untouched (c.execute ⟨offset, data⟩) (some (Reg.ofAddress offset)) := by
  have hbase : c.atCentre.triangleBase = none := by
    rw [triangleBase_atCentre]
    exact c.frame.drawOffset_eq_none hrevision hfront hback
  have hrun : c.run (c.command ⟨offset, data⟩) (ChipSelect.ofAddress offset) data = c.atCentre := by
    rw [command, register, Reg.ofRegister_of_isTriangleCmd _ hcommand]
    show c.drawTriangle = _
    rw [drawTriangle_eq, hbase]
  rw [← hrun]
  exact c.untouched_execute ⟨offset, data⟩ (Reg.isRaw_of_isTriangleCmd _ hcommand)

/-- a vertex that completes no triangle, or one that is dropped -/
theorem untouched_strip {offset data : UInt32} (hcommand : Reg.ofAddress offset = Reg.drawTriCmd)
    (hnone : (c.withVertex.setup.isComplete && !c.withVertex.setup.isCulled c.setupMode) = false) :
    c.Untouched (c.execute ⟨offset, data⟩) (some (Reg.ofAddress offset)) := by
  have hrun : c.run (c.command ⟨offset, data⟩) (ChipSelect.ofAddress offset) data = c.withVertex := by
    rw [command, register, hcommand, Command.ofRegister_drawTriCmd]
    show c.extendStrip = _
    rw [extendStrip_eq, hnone, if_neg Bool.false_ne_true]
  have h := c.untouched_execute ⟨offset, data⟩ (by rw [register, hcommand]; exact Reg.isRaw_drawTriCmd)
  rw [hrun] at h
  exact ⟨h.config, h.frame, h.queue, h.modes, fun hne => absurd (congrArg some hcommand) hne, h.regs, h.size, h.units⟩

/-! ## Linear writes and uploads -/

theorem linearWrite_of_reservedFormat {offset data byteMask : UInt32}
    (hformat : LinearFormat.ofCode? c.linearMode.writeFormat = none) : c.linearWrite offset data byteMask = c := by
  have htarget : c.linearTarget offset data byteMask = none := by
    simp only [linearTarget, LinearWrite.decode?]
    rw [show LinearFormat.ofCode? (LinearMode.decode (c.regs.get Reg.lfbMode)).writeFormat = none from hformat]
    rfl
  rw [linearWrite_eq, htarget]

theorem linearWrite_of_noBuffer {offset data byteMask : UInt32} (hrevision : c.revision.hasBansheeLayout = false)
    (hfront : c.linearMode.writeBuffer ≠ some .front) (hback : c.linearMode.writeBuffer ≠ some .back) :
    c.linearWrite offset data byteMask = c := by
  have hbuffer := c.frame.drawOffset_eq_none hrevision hfront hback
  have htarget : c.linearTarget offset data byteMask = none := by
    rw [linearMode] at hbuffer
    simp only [linearTarget, hbuffer, Option.map_none, Option.bind_fun_none]
  rw [linearWrite_eq, htarget]

theorem modifyTexture_of_absent {i : Nat} (hi : c.textures.size ≤ i) (f : TextureUnit → TextureUnit) :
    c.modifyTexture i f = c := by
  have htextures : c.textures.modify i f = c.textures := by
    refine Array.ext Array.size_modify fun j hj hj' => ?_
    rw [Array.getElem_modify, if_neg (by omega)]
  show { c with textures := c.textures.modify i f } = c
  rw [htextures]

/-- an upload to a level above 8 of a unit that does not number its texels linearly -/
theorem untouched_upload (h : c.Reachable) (hrevision : c.revision.hasBansheeLayout = false) {offset : UInt32}
    (hlevel : 8 < field offset 15 4) (data : UInt32) (i : Nat) :
    c.Untouched (c.modifyTexture i fun u => u.upload offset data) none := by
  rw [Alike.modifyTexture_eq]
  refine c.untouched_mapTextures c.regs _ (fun _ _ => rfl) fun j hj => ?_
  split
  · have hmake := make_reachable h (Array.getElem_mem hj)
    have hlinear : c.textures[j].linearUpload = false := (congrArg TextureUnit.Make.linearUpload hmake).trans hrevision
    exact c.textures[j].untouched_upload hlinear hlevel data
  · exact .refl _ _

/-! ## Calls -/

/-- on an idle chip a call is carried out at once, or does no more than wait in the queue -/
theorem queue_step (hidle : c.queue = .empty) (call : Call) :
    (c.step call).1.queue = .empty ∨ (c.step call).1 = c.withQueue (c.step call).1.queue := by
  cases call with
  | writeRegister offset data =>
    simp only [step, writeRegister]
    split_ifs
    · exact .inl hidle
    · have hroom : c.queue.isFull = false := by rw [hidle]; rfl
      exact .inr (by rw [enqueue, hroom]; rfl)
    · exact .inl (by rw [queue_execute, queue_flush])
  | readRegister offset =>
    simp only [step, readRegister]
    split_ifs
    · exact .inl (queue_flush c)
    · exact .inl hidle
  | writeLinear offset data byteMask => exact .inl ((queue_linearWrite _ _ _ _).trans (queue_flush c))
  | endRetrace => exact .inl hidle
  | _ => exact .inl (queue_flush c)

theorem prepared_of_not_isTriangle {call : Call} (h : call.isTriangle = false) : c.prepared call = c := by
  rw [prepared, h, Bool.false_and, if_neg Bool.false_ne_true]

theorem prepared_of_isTriangle {call : Call} (h : call.isTriangle = true) : c.prepared call = c.atCentre := by
  rw [prepared, h, Bool.true_and, atCentre]

section Idle

variable (hidle : c.queue = .empty)
include hidle

theorem untouched_of_step {call : Call} (htriangle : call.isTriangle = false) (hstep : (c.step call).1 = c) :
    (c.prepared call).Untouched (c.step call).1.flush (c.storedRegister? call) := by
  rw [c.prepared_of_not_isTriangle htriangle, hstep, flush_of_empty c hidle]
  exact .refl c _

theorem untouched_unwritable (offset data : UInt32)
    (hwrite : (Access.of c.revision (Reg.ofAddress offset)).write = false) :
    (c.prepared (.writeRegister offset data)).Untouched (c.step (.writeRegister offset data)).1.flush
      (c.storedRegister? (.writeRegister offset data)) := by
  have htriangle : (Reg.ofAddress offset).isTriangleCmd = false := by
    by_contra hne
    rw [Reg.write_of_isTriangleCmd c.revision (Bool.eq_true_of_not_eq_false hne)] at hwrite
    cases hwrite
  refine c.untouched_of_step hidle htriangle ?_
  simp only [step, writeRegister, hwrite, Bool.not_false, if_true]

theorem untouched_of_execute (offset data : UInt32)
    (hwrite : (Access.of c.revision (Reg.ofAddress offset)).write = true)
    (h : (c.prepared (.writeRegister offset data)).Untouched (c.execute ⟨offset, data⟩) (some (Reg.ofAddress offset))) :
    (c.prepared (.writeRegister offset data)).Untouched (c.step (.writeRegister offset data)).1.flush
      (c.storedRegister? (.writeRegister offset data)) := by
  have hflush : (c.step (.writeRegister offset data)).1.flush = c.execute ⟨offset, data⟩ := by
    show (c.writeRegister offset data).flush = _
    rw [flush_writeRegister c offset data hwrite, flush_of_empty c hidle]
  have hstored : c.storedRegister? (.writeRegister offset data) = some (Reg.ofAddress offset) := if_pos hwrite
  rw [hflush, hstored]
  exact h

/-- a vertex that nothing is drawn for; on Voodoo 1 its register has no write right -/
theorem untouched_vertex (offset data : UInt32) (hcommand : Reg.ofAddress offset = Reg.drawTriCmd)
    (hnone : (c.withVertex.setup.isComplete && !c.withVertex.setup.isCulled c.setupMode) = false) :
    (c.prepared (.writeRegister offset data)).Untouched (c.step (.writeRegister offset data)).1.flush
      (c.storedRegister? (.writeRegister offset data)) := by
  have htriangle : (Reg.ofAddress offset).isTriangleCmd = false := hcommand ▸ Reg.isTriangleCmd_drawTriCmd
  cases hwrite : (Access.of c.revision (Reg.ofAddress offset)).write with
  | false => exact c.untouched_unwritable hidle offset data hwrite
  | true =>
    refine c.untouched_of_execute hidle offset data hwrite ?_
    have hprepared : c.prepared (.writeRegister offset data) = c := c.prepared_of_not_isTriangle htriangle
    rw [hprepared]
    exact c.untouched_strip hcommand hnone

end Idle

/-- **Ignored calls change nothing**, once the queue is carried out, but for the word that they store, the vertices of
the setup unit and what a texture unit derives; a triangle command has moved the start values if it was asked to. Until
then they have at most put a write in the queue. -/
theorem ignored_untouched (h : c.Reachable) (hidle : c.queue = .empty) (call : Call) (hcall : c.Ignores call) :
    (c.prepared call).Untouched (c.step call).1.flush (c.storedRegister? call) ∧
      ((c.step call).1.queue = .empty ∨ (c.step call).1 = c.withQueue (c.step call).1.queue) := by
  refine ⟨?_, c.queue_step hidle call⟩
  have hflush := flush_of_empty c hidle
  cases hcall with
  | unwritable offset data hwrite => exact c.untouched_unwritable hidle offset data hwrite
  | reservedFormat offset data byteMask hformat =>
    refine c.untouched_of_step hidle rfl ?_
    show c.flush.linearWrite offset data byteMask = c
    rw [hflush, c.linearWrite_of_reservedFormat hformat]
  | noWriteBuffer offset data byteMask hrevision hfront hback =>
    refine c.untouched_of_step hidle rfl ?_
    show c.flush.linearWrite offset data byteMask = c
    rw [hflush, c.linearWrite_of_noBuffer hrevision hfront hback]
  | absentUnit offset data hunit =>
    refine c.untouched_of_step hidle rfl ?_
    show c.flush.modifyTexture _ _ = c
    rw [hflush, c.modifyTexture_of_absent hunit]
  | levelAbove offset data hrevision hlevel =>
    rw [c.prepared_of_not_isTriangle rfl]
    show c.Untouched (c.flush.modifyTexture _ fun u => u.upload offset data).flush none
    rw [hflush, flush_of_empty (c.modifyTexture _ _) hidle]
    exact c.untouched_upload h hrevision hlevel data _
  | noDrawBuffer offset data hcommand hrevision hfront hback =>
    refine c.untouched_of_execute hidle offset data (Reg.write_of_isTriangleCmd c.revision hcommand) ?_
    have hprepared : c.prepared (.writeRegister offset data) = c.atCentre := c.prepared_of_isTriangle hcommand
    rw [hprepared]
    exact c.untouched_triangle hcommand hrevision hfront hback
  | incomplete offset data hcommand hcount =>
    exact c.untouched_vertex hidle offset data hcommand (by rw [hcount, Bool.false_and])
  | culled offset data hcommand hculled =>
    exact c.untouched_vertex hidle offset data hcommand (by rw [hculled, Bool.not_true, Bool.and_false])

/-- a Voodoo 2 that is asked to move start values, with a reserved draw buffer and red rising along X -/
def reservedVoodoo : Chip :=
  ((initial ChipConfig.standard).runCalls
    [.writeRegister 0x41 0x4000000, .writeRegister 0x44 0xC000, .writeRegister 0x10 0x1000]).1

theorem ignores_reservedVoodoo :
    reservedVoodoo.Reachable ∧ reservedVoodoo.queue = .empty ∧ reservedVoodoo.Ignores (.writeRegister 0x20 0) := by
  refine ⟨⟨_, _, _, make_eq_ok.2 ⟨by decide, rfl⟩, rfl⟩, rfl, .noDrawBuffer _ _ ?_ ?_ ?_ ?_⟩ <;> decide +kernel

/-- its triangle command stores its word and moves the start values -/
theorem ignored_untouched_triangle :
    (reservedVoodoo.recentre 0).Untouched (reservedVoodoo.step (.writeRegister 0x20 0)).1.flush
      (some Reg.triangleCmd) := by
  obtain ⟨hreachable, hidle, hignores⟩ := ignores_reservedVoodoo
  have hprepared : reservedVoodoo.prepared (.writeRegister 0x20 0) = reservedVoodoo.recentre 0 := by
    have hcount : reservedVoodoo.textureCount = 0 := by decide +kernel
    rw [prepared, if_pos (by decide +kernel), hcount]
  have hstored : reservedVoodoo.storedRegister? (.writeRegister 0x20 0) = some Reg.triangleCmd := by decide +kernel
  obtain ⟨h, -⟩ := reservedVoodoo.ignored_untouched hreachable hidle (.writeRegister 0x20 0) hignores
  rwa [hprepared, hstored] at h

/-- the command is ignored, and the start of red is another one after it -/
theorem ignored_triangle_moves_start :
    (reservedVoodoo.Reachable ∧ reservedVoodoo.queue = .empty ∧ reservedVoodoo.Ignores (.writeRegister 0x20 0)) ∧
      reservedVoodoo.frame.triangle.red.start = 0 ∧
      (reservedVoodoo.step (.writeRegister 0x20 0)).1.frame.triangle.red.start = 0x800 :=
  ⟨ignores_reservedVoodoo, by decide +kernel, by decide +kernel⟩

end Chip
end Accel3D
