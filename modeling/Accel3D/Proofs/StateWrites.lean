/-
State registers can be written in any order.

A state register starts nothing: a vertex, a parameter, a mode, a color, two entries of the fog table, a word of a
texture's state. A write of one is stored in the files of the selected chips, and some have a target beside, a term of a
parameter or entries of the fog table (`StateTarget`). So it acts on the register file, on the frame buffer side and on
every texture unit apart (`Chip.applyState`). Writes of different registers go to different places of the files, and
different registers have different targets; that a texture unit has to be brought up to date is noted by all alike. So
two such writes give the same chip in either order, and with them every permutation of a list.

Results: `execute_eq_applyState` (what a write of a state register does), `execute_comm` (two of them),
`foldl_execute_last` (each of a list is in effect at the end), `independent_writes` (lists of them, at once or through
the queue).
-/
import Mathlib.Data.Fintype.Basic
import Mathlib.Tactic.FinCases
import Accel3D.Proofs.Deferral
import Accel3D.Proofs.Derived.Frame
import Accel3D.Proofs.ParameterForms

namespace Accel3D

/-! ## The registers -/

/-- registers that hold what triangles are drawn with, and start nothing -/
def Reg.isState (r : Reg) : Bool :=
  (Reg.vertexAx ≤ r && r < Reg.triangleCmd) || (Reg.fbzColorPath ≤ r && r ≤ Reg.clipLowYHighY) ||
    (Reg.fogColor ≤ r && r ≤ Reg.chromaRange) || [Reg.stipple, Reg.color0, Reg.color1].contains r ||
    (Command.place? Reg.fogTable 32 r).isSome || TextureUnit.isTextureRegister r

/-- what a state register writes beside the register files -/
inductive StateTarget where
  | parameter (x : ParameterRegister)
  | fog (n : Fin 32)
deriving DecidableEq, Repr

namespace StateTarget

def register : StateTarget → Reg
  | parameter x => x.register .integer
  | fog n => Fin.ofNat 256 (Reg.fogTable.val + n.val)

def command : StateTarget → Command
  | parameter x => x.command .integer
  | fog n => .fogTable n

/-- the target of the effect of a state register -/
def ofCommand? : Command → Option StateTarget
  | .vertex n .integer => some (parameter (.vertex n))
  | .pixelParameter p term .integer => some (parameter (.pixel p term))
  | .coordParameter p term .integer => some (parameter (.coord p term))
  | .fogTable n => some (fog n)
  | _ => none

def writeFrame (t : StateTarget) (data : UInt32) (f : FrameBuffer) : FrameBuffer :=
  match t with
  | parameter x => { f with triangle := x.writeTriangle f.triangle (signed data x.bits) }
  | fog n => { f with fog := f.fog.write n data }

def writeGradients (t : StateTarget) (data : UInt32) (g : TexGradients) : TexGradients :=
  match t with
  | parameter x => x.writeGradients g (signed data x.bits)
  | fog _ => g

end StateTarget

namespace Reg

def target? (v : Revision) (r : Reg) : Option StateTarget := StateTarget.ofCommand? (Command.ofRegister v r)

/-- a state register writes its target and nothing else -/
theorem isState_command (v : Revision) : ∀ r : Reg, r.isState = true →
    Command.ofRegister v r = (r.target? v).elim .plain StateTarget.command := by
  cases v <;> decide +kernel

/-- a target belongs to one register -/
theorem isState_register (v : Revision) : ∀ r : Reg, r.isState = true → ∀ t ∈ r.target? v, t.register = r := by
  cases v <;> decide +kernel

theorem isState_writeThrough (v : Revision) : ∀ r : Reg, r.isState = true → (Access.of v r).writeThrough = false := by
  cases v <;> decide +kernel

theorem isState_plain : ∀ r : Reg, r.isState = true →
    TextureUnit.nccRegister? r = none ∧ Chip.isLayoutRegister r = false := by decide +kernel

end Reg

/-! ## Writes of different places -/

theorem RegisterFile.set_comm (f : RegisterFile) {r q : Reg} (h : r ≠ q) (v w : UInt32) :
    (f.set r v).set q w = (f.set q w).set r v := by
  have hval : r.val ≠ q.val := fun e => h (Fin.ext e)
  exact congrArg RegisterFile.mk (Vector.set_comm v w hval)

theorem FogTable.write_comm (t : FogTable) {n m : Fin 32} (h : n ≠ m) (data word : UInt32) :
    (t.write n data).write m word = (t.write m word).write n data := by
  refine ext_entries fun i => ?_
  simp only [(getElem_write _ _ _ i).1, (getElem_write _ _ _ i).2]
  split_ifs with hm hn
  · exact absurd (hn.symm.trans hm) h
  all_goals exact ⟨rfl, rfl⟩

theorem GradientTerm.replace_comm {α : Type} (g : Gradient α) {s t : GradientTerm} (h : s ≠ t) (v w : α) :
    t.replace (s.replace g v) w = s.replace (t.replace g w) v := by
  cases s <;> cases t <;> first | rfl | exact absurd rfl h

namespace TriangleParameters

theorem writeVertex_comm (t : TriangleParameters) {n m : Fin 6} (h : n ≠ m) (v w : Int16) :
    (t.writeVertex n v).writeVertex m w = (t.writeVertex m w).writeVertex n v := by
  fin_cases n <;> fin_cases m <;> first | rfl | exact absurd rfl h

theorem writeVertex_writePixel (t : TriangleParameters) (n : Fin 6) (p : PixelParameter) (term : GradientTerm)
    (v : Int16) (w : Int32) :
    (t.writeVertex n v).writePixel p term w = (t.writePixel p term w).writeVertex n v := by
  fin_cases n <;> cases p <;> rfl

theorem writeVertex_writeCoord (t : TriangleParameters) (n : Fin 6) (p : CoordParameter) (term : GradientTerm)
    (v : Int16) (w : Int64) :
    (t.writeVertex n v).writeCoord p term w = (t.writeCoord p term w).writeVertex n v := by
  fin_cases n <;> cases p <;> rfl

theorem writePixel_writeCoord (t : TriangleParameters) (p : PixelParameter) (q : CoordParameter)
    (term term' : GradientTerm) (v : Int32) (w : Int64) :
    (t.writePixel p term v).writeCoord q term' w = (t.writeCoord q term' w).writePixel p term v := by
  cases p <;> cases q <;> rfl

theorem writePixel_comm (t : TriangleParameters) {p q : PixelParameter} {s r : GradientTerm} (h : p = q → s ≠ r)
    (v w : Int32) : (t.writePixel p s v).writePixel q r w = (t.writePixel q r w).writePixel p s v := by
  by_cases hpq : p = q
  · subst hpq
    cases p <;> simp only [writePixel, GradientTerm.replace_comm _ (h rfl) v w]
  · cases p <;> cases q <;> first | rfl | exact absurd rfl hpq

theorem writeCoord_comm (t : TriangleParameters) {p q : CoordParameter} {s r : GradientTerm} (h : p = q → s ≠ r)
    (v w : Int64) : (t.writeCoord p s v).writeCoord q r w = (t.writeCoord q r w).writeCoord p s v := by
  by_cases hpq : p = q
  · subst hpq
    cases p <;> simp only [writeCoord, GradientTerm.replace_comm _ (h rfl) v w]
  · cases p <;> cases q <;> first | rfl | exact absurd rfl hpq

end TriangleParameters

theorem TexGradients.write_comm (g : TexGradients) {p q : CoordParameter} {s r : GradientTerm} (h : p = q → s ≠ r)
    (v w : Int64) : (g.write p s v).write q r w = (g.write q r w).write p s v := by
  by_cases hpq : p = q
  · subst hpq
    cases p <;> simp only [write, GradientTerm.replace_comm _ (h rfl) v w]
  · cases p <;> cases q <;> first | rfl | exact absurd rfl hpq

namespace ParameterRegister

theorem writeTriangle_comm (t : TriangleParameters) {x y : ParameterRegister} (h : x ≠ y) (d e : Int) :
    y.writeTriangle (x.writeTriangle t d) e = x.writeTriangle (y.writeTriangle t e) d := by
  cases x with
  | vertex n => cases y with
    | vertex m => exact t.writeVertex_comm (fun hnm => h (congrArg vertex hnm)) _ _
    | pixel q term => exact t.writeVertex_writePixel ..
    | coord q term => exact t.writeVertex_writeCoord ..
  | pixel p s => cases y with
    | vertex m => exact (t.writeVertex_writePixel ..).symm
    | pixel q r => exact t.writePixel_comm (fun hpq hsr => h (by rw [hpq, hsr])) _ _
    | coord q r => exact t.writePixel_writeCoord ..
  | coord p s => cases y with
    | vertex m => exact (t.writeVertex_writeCoord ..).symm
    | pixel q r => exact (t.writePixel_writeCoord ..).symm
    | coord q r => exact t.writeCoord_comm (fun hpq hsr => h (by rw [hpq, hsr])) _ _

theorem writeGradients_comm (g : TexGradients) {x y : ParameterRegister} (h : x ≠ y) (d e : Int) :
    y.writeGradients (x.writeGradients g d) e = x.writeGradients (y.writeGradients g e) d := by
  cases x with
  | coord p s => cases y with
    | coord q r => exact g.write_comm (fun hpq hsr => h (by rw [hpq, hsr])) _ _
    | _ => rfl
  | _ => rfl

end ParameterRegister

namespace StateTarget

theorem writeFrame_comm {t u : StateTarget} (h : t ≠ u) (data word : UInt32) :
    Function.Commute (t.writeFrame data) (u.writeFrame word) := fun f => by
  cases t with
  | parameter x => cases u with
    | parameter y =>
      have hxy : x ≠ y := fun e => h (congrArg parameter e)
      simp only [writeFrame, ParameterRegister.writeTriangle_comm f.triangle hxy]
    | fog m => rfl
  | fog n => cases u with
    | parameter y => rfl
    | fog m =>
      have hnm : n ≠ m := fun e => h (congrArg fog e)
      simp only [writeFrame, f.fog.write_comm hnm]

theorem writeGradients_comm {t u : StateTarget} (h : t ≠ u) (data word : UInt32) :
    Function.Commute (t.writeGradients data) (u.writeGradients word) := fun g => by
  cases t with
  | parameter x => cases u with
    | parameter y => exact (ParameterRegister.writeGradients_comm g (fun e => h (congrArg parameter e)) _ _).symm
    | fog m => rfl
  | fog n => rfl

end StateTarget

/-! ## What a write of a state register does -/

/-- a write of a state register: where its word goes beside the files, and for which chips -/
structure StateWrite where
  target? : Option StateTarget
  register : Reg
  select : ChipSelect
  data : UInt32

namespace StateWrite

def onSelected {α : Type} (selected : Bool) (f : α → α) (a : α) : α := if selected then f a else a

def ofWrite (v : Revision) (w : RegisterWrite) : StateWrite :=
  ⟨(Chip.register w).target? v, Chip.register w, ChipSelect.ofAddress w.offset, w.data⟩

def file (s : StateWrite) : RegisterFile → RegisterFile :=
  onSelected s.select.frame fun f => f.set s.register s.data

def frame (s : StateWrite) : FrameBuffer → FrameBuffer :=
  onSelected s.select.frame (s.target?.elim id (·.writeFrame s.data))

def unit (s : StateWrite) (i : Nat) : TextureUnit → TextureUnit :=
  onSelected (s.select.texture i) fun u =>
    { u with
      regs := u.regs.set s.register s.data
      gradients := s.target?.elim id (·.writeGradients s.data) u.gradients
      stale := u.stale || TextureUnit.isTextureRegister s.register }

/-- writes of different registers with different targets -/
structure Apart (s q : StateWrite) : Prop where
  register : s.register ≠ q.register
  target : ∀ t ∈ s.target?, ∀ u ∈ q.target?, t ≠ u

theorem commute_onSelected {α : Type} {f g : α → α} (h : Function.Commute f g) (b b' : Bool) :
    Function.Commute (onSelected b f) (onSelected b' g) := by
  cases b with
  | false => exact Function.Commute.id_left
  | true => cases b' with
    | false => exact Function.Commute.id_right
    | true => exact h

theorem commute_elim {α : Type} {f g : StateTarget → α → α} {t? u? : Option StateTarget}
    (h : ∀ t ∈ t?, ∀ u ∈ u?, Function.Commute (f t) (g u)) : Function.Commute (t?.elim id f) (u?.elim id g) := by
  cases t? with
  | none => exact Function.Commute.id_left
  | some t => cases u? with
    | none => exact Function.Commute.id_right
    | some u => exact h t rfl u rfl

namespace Apart

variable {s q : StateWrite} (h : s.Apart q)
include h

theorem file : Function.Commute s.file q.file :=
  commute_onSelected (fun f => f.set_comm h.register.symm q.data s.data) _ _

theorem frame : Function.Commute s.frame q.frame :=
  commute_onSelected (commute_elim fun t ht u hu => StateTarget.writeFrame_comm (h.target t ht u hu) _ _) _ _

theorem unit (i : Nat) : Function.Commute (s.unit i) (q.unit i) := by
  refine commute_onSelected (fun u => ?_) _ _
  have hregs := u.regs.set_comm h.register.symm q.data s.data
  have hgradients := commute_elim (f := (·.writeGradients s.data)) (g := (·.writeGradients q.data))
    (fun t ht u hu => StateTarget.writeGradients_comm (h.target t ht u hu) _ _) u.gradients
  simp only [hregs, hgradients, Bool.or_right_comm]

end Apart

/-- different state registers have different targets -/
theorem apart_ofWrite (v : Revision) {w w' : RegisterWrite} (hw : (Chip.register w).isState = true)
    (hw' : (Chip.register w').isState = true) (h : Chip.register w ≠ Chip.register w') :
    (ofWrite v w).Apart (ofWrite v w') where
  register := h
  target t ht u hu htu := h <| calc
    Chip.register w = t.register := (Reg.isState_register v _ hw t ht).symm
    _ = u.register := congrArg StateTarget.register htu
    _ = Chip.register w' := Reg.isState_register v _ hw' u hu

end StateWrite

namespace Chip

def applyState (c : Chip) (s : StateWrite) : Chip :=
  { c with regs := s.file c.regs, frame := s.frame c.frame, textures := c.textures.mapIdx s.unit }

theorem applyState_comm (c : Chip) {s q : StateWrite} (h : s.Apart q) :
    (c.applyState s).applyState q = (c.applyState q).applyState s := by
  have hunits : (c.textures.mapIdx s.unit).mapIdx q.unit = (c.textures.mapIdx q.unit).mapIdx s.unit := by
    rw [Array.mapIdx_mapIdx, Array.mapIdx_mapIdx]
    exact congrArg c.textures.mapIdx (funext fun i => (h.unit i).symm.comp_eq)
  have hfile := (h.file c.regs).symm
  have hframe := (h.frame c.frame).symm
  simp only [applyState, hunits, hfile, hframe]

/-- a unit stores a state register as it is -/
theorem writeRegister_state (u : TextureUnit) {r : Reg} (hr : r.isState = true) (data : UInt32) :
    u.writeRegister r data =
      { u with regs := u.regs.set r data, stale := u.stale || TextureUnit.isTextureRegister r } := by
  have hncc := (Reg.isState_plain r hr).1
  unfold TextureUnit.writeRegister
  cases TextureUnit.isTextureRegister r with
  | true => rw [if_pos rfl, Bool.or_true]; rfl
  | false => rw [if_neg Bool.false_ne_true, hncc, Bool.or_false]; rfl

/-- the effect of a state register is that its word goes to the target -/
theorem run_target (c : Chip) (select : ChipSelect) (t : StateTarget) (data : UInt32) :
    c.run t.command select data =
      { c with
        frame := if select.frame then t.writeFrame data c.frame else c.frame
        textures := c.textures.mapIdx fun (i : Nat) u =>
          if select.texture i then { u with gradients := t.writeGradients data u.gradients } else u } := by
  cases t with
  | parameter x => exact c.run_writeParameter select x .integer rfl
  | fog n =>
    have hunits := mapIdx_eq_self c.textures
      (fun (i : Nat) u => if select.texture i then { u with gradients := u.gradients } else u) fun i u => ite_self u
    simp only [StateTarget.command, run, StateTarget.writeFrame, StateTarget.writeGradients, hunits]
    split <;> rfl

/-- **What a write of a state register does.** -/
theorem execute_eq_applyState (c : Chip) (w : RegisterWrite) (hw : (register w).isState = true) :
    c.execute w = c.applyState (StateWrite.ofWrite c.revision w) := by
  have hlayout := (Reg.isState_plain _ hw).2
  have hreach : c.reach w = ChipSelect.ofAddress w.offset := by
    rw [reach, Reg.isState_writeThrough c.revision _ hw, if_neg Bool.false_ne_true]
  have hcommand : c.command w = ((register w).target? c.revision).elim .plain StateTarget.command :=
    Reg.isState_command c.revision _ hw
  rw [execute_eq, updateLayout, hlayout, Bool.and_false, if_neg Bool.false_ne_true, stored, hreach, hcommand,
    storeRegister_eq]
  simp only [writeRegister_state _ hw]
  unfold applyState StateWrite.file StateWrite.frame StateWrite.unit StateWrite.ofWrite StateWrite.onSelected
  generalize ChipSelect.ofAddress w.offset = select
  cases (register w).target? c.revision with
  | none => simp only [Option.elim_none, run, id_eq, ite_self]
  | some t =>
    simp only [Option.elim_some, run_target, Array.mapIdx_mapIdx]
    congr 2
    funext i u
    cases select.texture i <;> rfl

/-- **Writes of different state registers commute.** -/
theorem execute_comm (c : Chip) {w w' : RegisterWrite} (hw : (register w).isState = true)
    (hw' : (register w').isState = true) (h : register w ≠ register w') :
    (c.execute w).execute w' = (c.execute w').execute w := by
  have hpair : ∀ {v v' : RegisterWrite}, (register v).isState = true → (register v').isState = true →
      (c.execute v).execute v' =
        (c.applyState (.ofWrite c.revision v)).applyState (.ofWrite c.revision v') := by
    intro v v' hv hv'
    rw [execute_eq_applyState _ v' hv', execute_eq_applyState c v hv]
    rfl
  rw [hpair hw hw', hpair hw' hw]
  exact c.applyState_comm (StateWrite.apart_ofWrite c.revision hw hw' h)

end Chip

/-! ## Lists of writes -/

def Call.ofWrite (w : RegisterWrite) : Call := .writeRegister w.offset w.data

namespace Chip

def isWritable (c : Chip) (w : RegisterWrite) : Bool := (Access.of c.revision (register w)).write

def carryOut (c : Chip) : List RegisterWrite → Chip
  | [] => c
  | writes => writes.foldl execute c.flush

/-- a chip that does not defer its writes carries out those that the access rights allow -/
theorem runCalls_writes (c : Chip) (hdefer : c.config.deferWrites = false) (ws : List RegisterWrite)
    (calls : List Call) :
    c.runCalls (ws.map Call.ofWrite ++ calls) = (c.carryOut (ws.filter c.isWritable)).runCalls calls := by
  induction ws generalizing c with
  | nil => rfl
  | cons w ws ih =>
    have hstep : c.runCalls ((w :: ws).map Call.ofWrite ++ calls) =
        (c.writeRegister w.offset w.data).runCalls (ws.map Call.ofWrite ++ calls) := rfl
    rw [hstep]
    cases hw : c.isWritable w with
    | false =>
      have hwrite : c.writeRegister w.offset w.data = c := by
        have haccess : (Access.of c.revision (Reg.ofAddress w.offset)).write = false := hw
        simp only [writeRegister, haccess, Bool.not_false, if_true]
      rw [List.filter_cons_of_neg (by rw [hw]; exact Bool.false_ne_true), hwrite]
      exact ih c hdefer
    | true =>
      have hwrite : c.writeRegister w.offset w.data = c.flush.execute w := by
        have haccess : (Access.of c.revision (Reg.ofAddress w.offset)).write = true := hw
        simp only [writeRegister, haccess, hdefer]
        rfl
      have hconfig : (c.flush.execute w).config = c.config :=
        (congrArg Shape.config (shape_execute c.flush w)).trans (config_flush c)
      have hwritable : (c.flush.execute w).isWritable = c.isWritable :=
        congrArg (fun config : ChipConfig => fun w => (Access.of config.revision (register w)).write) hconfig
      have hrest : ∀ writes, (c.flush.execute w).carryOut writes = writes.foldl execute (c.flush.execute w) := by
        intro writes
        cases writes with
        | nil => rfl
        | cons w' writes =>
          show (w' :: writes).foldl execute (c.flush.execute w).flush = _
          rw [flush_execute _ _ (queue_flush c)]
      rw [List.filter_cons_of_pos hw, hwrite, ih _ (by rw [hconfig, hdefer]), hrest, hwritable]
      rfl

/-- writes of different state registers carried out in any order -/
theorem foldl_execute_perm (c : Chip) {vs ws : List RegisterWrite} (hperm : vs.Perm ws)
    (hstate : ∀ w ∈ vs, (register w).isState = true) (hapart : (vs.map register).Nodup) :
    vs.foldl execute c = ws.foldl execute c := by
  refine hperm.foldl_eq' (fun w hw w' hw' d => ?_) c
  by_cases heq : w = w'
  · rw [heq]
  · have hregisters : register w ≠ register w' := fun e => heq (List.inj_on_of_nodup_map hapart hw hw' e)
    exact d.execute_comm (hstate w hw) (hstate w' hw') hregisters

/-- each write of such a list is in effect as if it had been the last -/
theorem foldl_execute_last (c : Chip) {ws : List RegisterWrite} (hstate : ∀ w ∈ ws, (register w).isState = true)
    (hapart : (ws.map register).Nodup) {w : RegisterWrite} (hw : w ∈ ws) :
    ws.foldl execute c = ((ws.erase w).foldl execute c).applyState (.ofWrite c.revision w) := by
  have hlast : ws.Perm (ws.erase w ++ [w]) :=
    (List.perm_cons_erase hw).trans (List.perm_append_singleton w (ws.erase w)).symm
  have hshape : ((ws.erase w).foldl execute c).shape = c.shape := (kept_shape c.shape).writes _ c rfl
  have hrevision : ((ws.erase w).foldl execute c).revision = c.revision :=
    congrArg (fun s => s.config.revision) hshape
  calc ws.foldl execute c = (ws.erase w ++ [w]).foldl execute c := c.foldl_execute_perm hlast hstate hapart
    _ = ((ws.erase w).foldl execute c).execute w := List.foldl_concat ..
    _ = ((ws.erase w).foldl execute c).applyState (.ofWrite c.revision w) := by
      rw [execute_eq_applyState _ w (hstate w hw), hrevision]

theorem carryOut_perm (c : Chip) {vs ws : List RegisterWrite} (hperm : vs.Perm ws)
    (hstate : ∀ w ∈ vs, (register w).isState = true) (hapart : (vs.map register).Nodup) :
    c.carryOut vs = c.carryOut ws := by
  cases vs with
  | nil => rw [List.nil_perm.1 hperm]
  | cons v vs => cases ws with
    | nil => exact absurd (List.perm_nil.1 hperm) (List.cons_ne_nil v vs)
    | cons w ws => exact c.flush.foldl_execute_perm hperm hstate hapart

/-- **State registers can be written in any order.** Of a list of writes of different state registers, for any chips and
with any data, every permutation leaves the same chip, on which each of the writes is in effect as if it had been the
last. On a chip that does not defer its writes the host's calls for them leave the same chip too, so whatever calls
follow, a triangle command among them, do the same and read the same; on a chip that defers them, what follows reads
the same, and leaves the same once the queue is carried out. -/
theorem independent_writes (c : Chip) {vs ws : List RegisterWrite} (hperm : vs.Perm ws)
    (hstate : ∀ w ∈ vs, (register w).isState = true) (hapart : (vs.map register).Nodup) :
    vs.foldl execute c = ws.foldl execute c ∧
      (∀ w ∈ vs, vs.foldl execute c = ((vs.erase w).foldl execute c).applyState (.ofWrite c.revision w)) ∧
      ∀ calls : List Call,
        (c.config.deferWrites = false →
          c.runCalls (vs.map .ofWrite ++ calls) = c.runCalls (ws.map .ofWrite ++ calls)) ∧
        (c.runCalls (vs.map .ofWrite ++ calls)).2 = (c.runCalls (ws.map .ofWrite ++ calls)).2 ∧
        (c.runCalls (vs.map .ofWrite ++ calls)).1.flush = (c.runCalls (ws.map .ofWrite ++ calls)).1.flush := by
  have hsame : ∀ (c : Chip) calls, c.config.deferWrites = false →
      c.runCalls (vs.map .ofWrite ++ calls) = c.runCalls (ws.map .ofWrite ++ calls) := by
    intro c calls hdefer
    have hwritable : c.carryOut (vs.filter c.isWritable) = c.carryOut (ws.filter c.isWritable) :=
      c.carryOut_perm (hperm.filter _) (fun w hw => hstate w (List.mem_of_mem_filter hw))
        (hapart.sublist (List.filter_sublist.map register))
    rw [runCalls_writes c hdefer, runCalls_writes c hdefer, hwritable]
  refine ⟨c.foldl_execute_perm hperm hstate hapart, fun w hw => c.foldl_execute_last hstate hapart hw,
    fun calls => ⟨hsame c calls, ?_, ?_⟩⟩
  · rw [(drained_run c _).1, hsame c.drained calls rfl, ← (drained_run c _).1]
  · rw [flush_run c _ _ rfl, hsame c.drained calls rfl, ← flush_run c _ _ rfl]

/-- the start of W for all chips, two entries of the fog table and the mode of the first texture unit, in their order
and in the reverse order, before a triangle -/
theorem independent_writes_reversed :
    let c := initial ChipConfig.standard
    let ws : List RegisterWrite := [⟨0x00F, 5⟩, ⟨0x15B, 0x01020304⟩, ⟨0x2C0, 1⟩]
    (ws.Perm ws.reverse ∧ (∀ w ∈ ws, (register w).isState = true) ∧ (ws.map register).Nodup) ∧
      ws.foldl execute c = ws.reverse.foldl execute c ∧
      c.runCalls (ws.map .ofWrite ++ [.writeRegister 0x20 0]) =
        c.runCalls (ws.reverse.map .ofWrite ++ [.writeRegister 0x20 0]) ∧
      (ws.foldl execute c).frame.triangle.w.start = 20 := by
  intro c ws
  have hperm : ws.Perm ws.reverse := (List.reverse_perm ws).symm
  have hstate : ∀ w ∈ ws, (register w).isState = true := by decide
  have hapart : (ws.map register).Nodup := by decide
  obtain ⟨hexecute, -, hcalls⟩ := c.independent_writes hperm hstate hapart
  exact ⟨⟨hperm, hstate, hapart⟩, hexecute, (hcalls [.writeRegister 0x20 0]).1 rfl, by decide +kernel⟩

end Chip
end Accel3D
