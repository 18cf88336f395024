/-
The vertices that the setup unit keeps.

A strip or fan begins with one vertex in all three places, and each draw puts the next vertex in. So after any draws the
last place holds the last vertex and the middle one the vertex before it. The first place changes only at a draw in strip
mode, which moves the middle vertex down: it holds the vertex two before the last such draw, whatever the draws since
then were. The count is one more than the draws as long as it fits in a word, and its parity decides which way a dropped
triangle faces.

What the unit holds is stated of the chip: of the vertices and modes that its registers hold when the commands are
carried out, whatever else is done in between (`Chip.draws`).

Results: `Follows.push` (one draw), `follows_foldl` (any actions), `strip_vertices` (the places, the count, the triangles
and their signs).
-/
import Mathlib.Data.List.DropRight
import Mathlib.Data.List.Induction
import Accel3D.Proofs.Display

namespace Accel3D

/-! ## Draws -/

/-- a vertex drawn: the mode and the vertex that the registers held, and the unit with the vertex in it -/
structure SetupDraw where
  mode : SetupMode
  vertex : SetupVertex
  unit : SetupUnit
deriving DecidableEq, Repr

/-- number of the last draw made in strip mode, counted from 1; 0 if there is none -/
def SetupDraw.lastStrip (draws : List SetupDraw) : Nat := (draws.rdropWhile (·.mode.fan)).length

theorem SetupDraw.lastStrip_concat (draws : List SetupDraw) (d : SetupDraw) :
    lastStrip (draws ++ [d]) = if d.mode.fan then lastStrip draws else draws.length + 1 := by
  unfold lastStrip
  split
  next hfan => rw [List.rdropWhile_concat_pos _ draws d hfan]
  next hstrip => rw [List.rdropWhile_concat_neg _ draws d hstrip, List.length_append, List.length_singleton]

namespace SetupUnit

theorem count_push {u : SetupUnit} (h : u.count.toNat + 1 < 2 ^ 32) (fan : Bool) (v : SetupVertex) :
    (u.push fan v).count = u.count + 1 ∧ (u.push fan v).count.toNat = u.count.toNat + 1 := by
  have hne : u.count ≠ 0xFFFFFFFF := by
    intro heq
    rw [heq] at h
    exact absurd h (by decide)
  have hcount : (u.push fan v).count = u.count + 1 := if_neg hne
  refine ⟨hcount, ?_⟩
  rw [hcount, UInt32.toNat_add]
  exact Nat.mod_eq_of_lt h

/-- what a unit holds after a strip or fan that began with the vertex `first` and these draws -/
structure Follows (u : SetupUnit) (first : SetupVertex) (draws : List SetupDraw) : Prop where
  last : (first :: draws.map (·.vertex))[draws.length]? = some u.v2
  previous : (first :: draws.map (·.vertex))[draws.length - 1]? = some u.v1
  kept : (first :: draws.map (·.vertex))[SetupDraw.lastStrip draws - 2]? = some u.v0
  count : u.count.toNat = draws.length + 1
  counts : ∀ i d, draws[i]? = some d → d.unit.count.toNat = i + 2

theorem follows_begin (v : SetupVertex) : (begin v).Follows v [] where
  last := rfl
  previous := rfl
  kept := rfl
  count := rfl
  counts i d h := by simp at h

/-- one draw more -/
theorem Follows.push {u : SetupUnit} {first : SetupVertex} {draws : List SetupDraw} (h : u.Follows first draws)
    (hroom : draws.length + 2 < 2 ^ 32) {d : SetupDraw} (hd : d.unit = u.push d.mode.fan d.vertex) :
    d.unit.Follows first (draws ++ [d]) := by
  have hcount : d.unit.count.toNat = draws.length + 2 := by
    rw [hd, (count_push (by rw [h.count]; exact hroom) d.mode.fan d.vertex).2, h.count]
  -- the vertices that were there keep their numbers
  have hearlier : ∀ {i : Nat} {v : SetupVertex}, (first :: draws.map (·.vertex))[i]? = some v →
      (first :: (draws ++ [d]).map (·.vertex))[i]? = some v := by
    intro i v hi
    have hlt : i < (first :: draws.map (·.vertex)).length := (List.getElem?_eq_some_iff.1 hi).1
    rw [List.map_append, ← List.cons_append, List.getElem?_append_left hlt, hi]
  constructor
  case last => simp [hd, SetupUnit.push]
  case previous =>
    rw [hd, List.length_append, List.length_singleton, Nat.add_sub_cancel]
    exact hearlier h.last
  case kept =>
    rw [SetupDraw.lastStrip_concat, hd]
    cases d.mode.fan with
    | true => exact hearlier h.kept
    | false => exact hearlier h.previous
  case count => rw [hcount, List.length_append, List.length_singleton]
  case counts =>
    intro i e he
    rcases Nat.lt_trichotomy i draws.length with hlt | rfl | hgt
    · rw [List.getElem?_append_left hlt] at he
      exact h.counts i e he
    · rw [List.getElem?_concat_length, Option.some.injEq] at he
      rw [← he]
      exact hcount
    · rw [List.getElem?_eq_none (by rw [List.length_append, List.length_singleton]; omega)] at he
      cases he

/-- three vertices have come when the count says so -/
theorem isComplete_iff (u : SetupUnit) : u.isComplete = true ↔ 3 ≤ u.count.toNat := by
  rw [isComplete, decide_eq_true_eq, UInt32.le_iff_toNat_le]
  exact Iff.rfl

theorem bit_zero_succ (w : UInt32) : bit (w + 1) 0 = !bit w 0 := by
  simp only [bit, UInt32.toNat_add, Nat.testBit_zero]
  have hone : (1 : UInt32).toNat = 1 := rfl
  rw [hone]
  rcases Nat.mod_two_eq_zero_or_one w.toNat with h | h
  · have hnext : (w.toNat + 1) % 2 ^ 32 % 2 = 1 := by omega
    rw [h, hnext]
    rfl
  · have hnext : (w.toNat + 1) % 2 ^ 32 % 2 = 0 := by omega
    rw [h, hnext]
    rfl

/-- with one vertex more the sign of a dropped triangle is the other one in a strip with ping-pong, and the same
otherwise -/
theorem droppedSign_succ {u u' : SetupUnit} (h : u'.count = u.count + 1) (mode : SetupMode) :
    u'.droppedSign mode =
      if mode.fan || mode.disablePingPong then u.droppedSign mode else !u.droppedSign mode := by
  have hparity : bit (u'.count - 3) 0 = !bit (u.count - 3) 0 := by
    rw [← bit_zero_succ, h, UInt32.sub_eq_add_neg, UInt32.sub_eq_add_neg, UInt32.add_assoc, UInt32.add_assoc,
      UInt32.add_comm 1]
  unfold droppedSign
  rw [hparity]
  cases mode.fan <;> cases mode.disablePingPong <;> cases mode.cullingSign <;> cases bit (u.count - 3) 0 <;> rfl

end SetupUnit

def Action.writes (r : Reg) : Action → Bool
  | .write w => Chip.register w == r
  | _ => false

theorem Command.ofRegister_setup (revision : Revision) : ∀ r : Reg,
    (ofRegister revision r = .beginStrip ↔ r = Reg.beginTriCmd) ∧
      (ofRegister revision r = .extendStrip ↔ r = Reg.drawTriCmd) := by
  cases revision <;> decide +kernel

namespace Chip

/-! ## The unit and the actions -/

variable (c : Chip)

def nextDraw : SetupDraw := ⟨c.setupMode, SetupVertex.ofRegisters c.regs, c.withVertex.setup⟩

def draw? (a : Action) : Option SetupDraw := if a.writes Reg.drawTriCmd then some c.nextDraw else none

def draws (c : Chip) : List Action → List SetupDraw
  | [] => []
  | a :: as => (c.draw? a).toList ++ (c.act a).draws as

theorem draws_concat (as : List Action) (a : Action) :
    c.draws (as ++ [a]) = c.draws as ++ ((as.foldl act c).draw? a).toList := by
  induction as generalizing c with
  | nil => simp [draws]
  | cons b as ih => simp only [List.cons_append, draws, ih, List.append_assoc, List.foldl_cons]

theorem length_draws (as : List Action) : (c.draws as).length = as.countP (·.writes Reg.drawTriCmd) := by
  induction as generalizing c with
  | nil => rfl
  | cons a as ih =>
    rw [draws, List.length_append, ih, List.countP_cons, draw?, Nat.add_comm]
    split <;> rfl

theorem setup_drawTriangle : c.drawTriangle.setup = c.setup := by
  have hcentre : c.atCentre.setup = c.setup := by
    unfold atCentre
    split <;> rfl
  have hpaint : ∀ (d : Chip) (r : Raster), (d.paintRaster r).setup = d.setup := fun d r => by
    unfold paintRaster
    generalize r.draw = draw
    rfl
  rw [drawTriangle_eq, ← hcentre]
  split
  · rfl
  · rw [rasterize_eq, hpaint]
    rfl

/-- a draw leaves the unit with its vertex in it, whether the triangle is drawn, dropped or not complete -/
theorem setup_extendStrip : c.extendStrip.setup = c.withVertex.setup := by
  rw [extendStrip_eq]
  split
  · exact setup_drawTriangle _
  · rfl

theorem setup_run (command : Command) (select : ChipSelect) (data : UInt32) :
    (c.run command select data).setup =
      match command with
      | .beginStrip => .begin (SetupVertex.ofRegisters c.regs)
      | .extendStrip => c.withVertex.setup
      | _ => c.setup := by
  cases command with
  | triangle => exact setup_drawTriangle c
  | extendStrip => exact setup_extendStrip c
  | fogTable n => simp only [run]; split <;> rfl
  | coordParameter p term form => simp only [run, writeCoord]; split <;> rfl
  | vertex n form => simp only [run]; split <;> rfl
  | pixelParameter p term form => simp only [run]; split <;> rfl
  | _ => rfl

theorem setup_execute (w : RegisterWrite) :
    (c.execute w).setup = (c.run (c.command w) (ChipSelect.ofAddress w.offset) w.data).setup := by
  rw [execute_eq, updateLayout, stored, storeRegister]
  split <;> split <;> rfl

theorem setup_act (a : Action) :
    (c.act a).setup =
      if a.writes Reg.beginTriCmd then .begin (SetupVertex.ofRegisters c.regs)
      else if a.writes Reg.drawTriCmd then c.withVertex.setup else c.setup := by
  cases a with
  | write w =>
    obtain ⟨hbegin, hdraw⟩ := Command.ofRegister_setup c.revision (register w)
    show (c.execute w).setup = _
    rw [setup_execute, setup_run]
    simp only [Action.writes, beq_iff_eq, ← hbegin, ← hdraw, command]
    cases Command.ofRegister c.revision (register w) <;> rfl
  | linearWrite offset data byteMask =>
    have hside := linearWrite_eq c offset data byteMask
    simp only [act, hside]
    split
    · rfl
    · rfl
  | upload i offset data => rfl
  | retrace => rfl
  | endRetrace => rfl

/-! ## Any actions after a begin -/

/-- **What the unit holds after any actions** that begin no other strip or fan. -/
theorem follows_foldl {first : SetupVertex} (h : c.setup = .begin first) (as : List Action)
    (hnone : ∀ a ∈ as, a.writes Reg.beginTriCmd = false) (hroom : as.countP (·.writes Reg.drawTriCmd) < 2 ^ 32 - 1) :
    (as.foldl act c).setup.Follows first (c.draws as) := by
  induction as using List.reverseRecOn with
  | nil => exact h ▸ SetupUnit.follows_begin first
  | append_singleton as a ih =>
    have hbefore := ih (fun b hb => hnone b (List.mem_append_left _ hb))
    have ha : a.writes Reg.beginTriCmd = false := hnone a (by simp)
    rw [List.countP_append, List.countP_singleton] at hroom
    have hfollows := hbefore (by omega)
    rw [List.foldl_append, draws_concat]
    show ((as.foldl act c).act a).setup.Follows _ _
    rw [setup_act, ha, if_neg Bool.false_ne_true, draw?]
    split
    next hdraw =>
      rw [if_pos hdraw, ← length_draws c] at hroom
      exact hfollows.push (d := (as.foldl act c).nextDraw) (by omega) rfl
    next hdraw => simpa using hfollows

/-- **Strips and fans keep the right vertices.** A strip or fan is begun, and then come any actions that begin no other,
fewer than 2^32 - 1 draws among them, each in a mode of its own. Then the last place holds the last vertex, the middle
one the vertex before it, the first one the vertex two before the last draw made in strip mode (the vertex of the begin
if there is none or it is among the first two), and the count is one more than the draws. A draw has a triangle to draw
or to drop exactly from the second one on. From one triangle to the next of the same mode the sign of the triangles that
are dropped changes in a strip with ping-pong, and in no other strip and in no fan. -/
theorem strip_vertices (w : RegisterWrite) (as : List Action) (hbegin : register w = Reg.beginTriCmd)
    (hnone : ∀ a ∈ as, a.writes Reg.beginTriCmd = false) (hroom : as.countP (·.writes Reg.drawTriCmd) < 2 ^ 32 - 1) :
    let draws := (c.execute w).draws as
    let vertices := SetupVertex.ofRegisters c.regs :: draws.map (·.vertex)
    let unit := (as.foldl act (c.execute w)).setup
    let n := as.countP (·.writes Reg.drawTriCmd)
    draws.length = n ∧ vertices[n]? = some unit.v2 ∧ vertices[n - 1]? = some unit.v1 ∧
      vertices[SetupDraw.lastStrip draws - 2]? = some unit.v0 ∧ unit.count.toNat = n + 1 ∧
      (∀ i d, draws[i]? = some d → (d.unit.isComplete = true ↔ 2 ≤ i + 1)) ∧
      ∀ i d e, 2 ≤ i + 1 → draws[i]? = some d → draws[i + 1]? = some e → e.mode = d.mode →
        e.unit.droppedSign e.mode =
          if d.mode.fan || d.mode.disablePingPong then d.unit.droppedSign d.mode else !d.unit.droppedSign d.mode := by
  intro draws vertices unit n
  have hlength : draws.length = n := length_draws _ as
  have hsetup : (c.execute w).setup = .begin (SetupVertex.ofRegisters c.regs) := by
    exact (c.setup_act (.write w)).trans (if_pos (beq_iff_eq.2 hbegin))
  have hfollows : unit.Follows (SetupVertex.ofRegisters c.regs) draws := follows_foldl _ hsetup as hnone hroom
  rw [← hlength]
  refine ⟨rfl, hfollows.last, hfollows.previous, hfollows.kept, hfollows.count, ?_, ?_⟩
  · intro i d hd
    rw [SetupUnit.isComplete_iff, hfollows.counts i d hd]
    omega
  · intro i d e _ hd he hmode
    have hnext : e.unit.count = d.unit.count + 1 := by
      have hi : i + 1 < draws.length := (List.getElem?_eq_some_iff.1 he).1
      rw [← UInt32.toNat_inj, UInt32.toNat_add, hfollows.counts i d hd, hfollows.counts (i + 1) e he]
      exact (Nat.mod_eq_of_lt (by omega)).symm
    rw [hmode]
    exact SetupUnit.droppedSign_succ hnext d.mode

/-- three draws of a strip, each with another X, and one in fan mode -/
def stripThenFan : List Action :=
  [.write ⟨0x99, 0x3F800000⟩, .write ⟨0xA8, 0⟩, .write ⟨0x99, 0x40000000⟩, .write ⟨0xA8, 0⟩,
    .write ⟨0x99, 0x40400000⟩, .write ⟨0xA8, 0⟩, .write ⟨0x98, 0x10000⟩, .write ⟨0x99, 0x40800000⟩, .write ⟨0xA8, 0⟩]

/-- the fan keeps in the first place what the strip before it left there -/
theorem strip_vertices_fan :
    register ⟨0xA9, 0⟩ = Reg.beginTriCmd ∧ (∀ a ∈ stripThenFan, a.writes Reg.beginTriCmd = false) ∧
      stripThenFan.countP (·.writes Reg.drawTriCmd) < 2 ^ 32 - 1 ∧
      let unit := (stripThenFan.foldl act ((initial ChipConfig.standard).execute ⟨0xA9, 0⟩)).setup
      unit.v0.x = 0x3F800000 ∧ unit.v1.x = 0x40400000 ∧ unit.v2.x = 0x40800000 ∧ unit.count.toNat = 5 := by
  have hbegin : register ⟨0xA9, 0⟩ = Reg.beginTriCmd := by decide
  have hnone : ∀ a ∈ stripThenFan, a.writes Reg.beginTriCmd = false := by decide
  have hroom : stripThenFan.countP (·.writes Reg.drawTriCmd) < 2 ^ 32 - 1 := by decide
  have hstrip : SetupDraw.lastStrip (((initial ChipConfig.standard).execute ⟨0xA9, 0⟩).draws stripThenFan) = 3 := by
    decide +kernel
  have hxs : (SetupVertex.ofRegisters (initial ChipConfig.standard).regs ::
      (((initial ChipConfig.standard).execute ⟨0xA9, 0⟩).draws stripThenFan).map (·.vertex)).map (·.x) =
        [0, 0x3F800000, 0x40000000, 0x40400000, 0x40800000] := by
    decide +kernel
  have hx : ∀ {vertices : List SetupVertex} {i : Nat} {v : SetupVertex}, vertices[i]? = some v →
      (vertices.map (·.x))[i]? = some v.x := fun h => by rw [List.getElem?_map, h]; rfl
  obtain ⟨-, hlast, hprevious, hkept, hcount, -⟩ :=
    strip_vertices (initial ChipConfig.standard) ⟨0xA9, 0⟩ stripThenFan hbegin hnone hroom
  have hfirst := hx hkept
  have hmiddle := hx hprevious
  have hthird := hx hlast
  rw [hxs] at hfirst hmiddle hthird
  rw [hstrip] at hfirst
  exact ⟨hbegin, hnone, hroom, (Option.some.inj hfirst).symm, (Option.some.inj hmiddle).symm,
    (Option.some.inj hthird).symm, hcount⟩

end Chip
end Accel3D
